import OmniORB.Cdr.Words

/-!
# Reading chunked values

The input side of `cdrValueChunkStream`, which wraps another stream and takes chunks apart.
-/

namespace OmniORB

open Library

/-- What ends an operation on chunked values, other than its return. -/
inductive ChunkExn where
  | cdr (e : Exn)
  | invalidChunkedEncoding
  | assertionFailure
  deriving DecidableEq, Repr

/-- The value of a `CORBA::Long`. -/
def toLong (n : ℕ) : ℤ := if n < 2 ^ 31 then n else n - 2 ^ 32

/-! ### The wrapped stream -/

/-- A stream whose first `buffered` unread octets are in its buffer. Buffers end on multiples of
eight octets, or where the message does. -/
structure Actual extends CdrIn where
  buffered : ℕ

/-- How many octets are in the buffer of a stream that has read `n` octets, past the end of its
buffer: the transport decides, and so does whether they were copied or skipped. -/
abbrev Refill := Bool → ℕ → Actual → ℕ

namespace Actual

variable (host : ByteOrder) (refill : Refill)

/-- Go on behind `n` octets. -/
def past (copying : Bool) (n : ℕ) (s : Actual) : Actual where
  toCdrIn := s.advance n
  buffered := if n ≤ s.buffered then s.buffered - n else refill copying n s

def getOctetArray (n : ℕ) (s : Actual) : Except ChunkExn (List UInt8 × Actual) :=
  if s.unread.length < n then .error (.cdr .marshalPassEndOfMessage)
  else .ok (s.unread.take n, s.past refill true n)

def skipInput (n : ℕ) (s : Actual) : Except ChunkExn Actual :=
  if s.unread.length < n then .error (.cdr .marshalPassEndOfMessage)
  else .ok (s.past refill false n)

/-- `operator<<=` of a `CORBA::Long` -/
def unmarshalLong (s : Actual) : Except ChunkExn (ℤ × Actual) :=
  match s.unmarshalWord host .align4 with
  | .error e => .error (.cdr e)
  | .ok (n, _) => .ok (toLong n, s.past refill false (alignTo s.mkr 4 - s.mkr + 4))

/-- `fetchInputData(ALIGN_4, 4)`: nothing happens if four octets are in the buffer. -/
def fetchLong (s : Actual) : Actual :=
  let pad := alignTo s.mkr 4 - s.mkr
  if pad + 4 ≤ s.buffered then s else { s.past refill false pad with buffered := refill false pad s }

/-- `peekChunkTag` -/
def peekChunkTag (s : Actual) : Except ChunkExn (ℤ × Actual) :=
  match s.unmarshalWord host .align4 with
  | .error e => .error (.cdr e)
  | .ok (n, _) => .ok (toLong n, s.fetchLong refill)

end Actual

/-! ### Chunks -/

/-- The members of `cdrValueChunkStream` for input. `avail` octets lie between `pd_inb_mkr` and
`pd_inb_end`. -/
structure ValueChunkIn where
  actual : Actual
  avail : ℕ
  remaining : ℕ
  nestLevel : ℤ
  inHeader : Bool
  inChunk : Bool
  remaining_lt : remaining < 2 ^ 32

namespace ValueChunkIn

variable (host : ByteOrder) (refill : Refill)

/-- The constructor and `initialiseInput`. -/
def initialiseInput (a : Actual) : ValueChunkIn where
  actual := a
  avail := a.buffered
  remaining := 0
  nestLevel := 1
  inHeader := true
  inChunk := false
  remaining_lt := by decide

/-- `copyStateFromActual` -/
def copyStateFromActual (a : Actual) (s : ValueChunkIn) : ValueChunkIn :=
  { s with actual := a, avail := a.buffered }

/-- Move `pd_inb_mkr` within the buffer. -/
def move (n : ℕ) (s : ValueChunkIn) : ValueChunkIn :=
  { s with actual := s.actual.past refill true n, avail := s.avail - n }

/-- The end of the data when `len` octets of a chunk are still to come. -/
def setEnd (len : ℕ) (s : ValueChunkIn) : ValueChunkIn :=
  if s.avail < len then
    { s with remaining := (len - s.avail) % 2 ^ 32, remaining_lt := Nat.mod_lt _ (by decide) }
  else { s with avail := len }

def startInputChunk (s : ValueChunkIn) : Except ChunkExn ValueChunkIn := do
  let (len, a) ← s.actual.peekChunkTag host refill
  let s := s.copyStateFromActual a
  if len ≤ 0 ∨ 0x7fffff00 ≤ len then
    -- an empty chunk, or a nested value in place of one
    .ok { s with avail := 0, remaining := 0, inChunk := true, remaining_lt := by decide }
  else do
    let (len, a) ← s.actual.unmarshalLong host refill
    let s := s.copyStateFromActual a
    if s.avail < len.toNat then .ok { s.setEnd len.toNat with inChunk := true }
    else
      .ok { s with avail := len.toNat, remaining := 0, inChunk := true, remaining_lt := by decide }

def startInputValueBody (s : ValueChunkIn) : Except ChunkExn ValueChunkIn :=
  if s.inHeader then startInputChunk host refill { s with inHeader := false }
  else .error .invalidChunkedEncoding

def endInputValue (s : ValueChunkIn) : Except ChunkExn ValueChunkIn := do
  let (tag, a) ← s.actual.unmarshalLong host refill
  if 0 ≤ tag then .error .invalidChunkedEncoding
  else if s.nestLevel ≤ -tag - 1 then .error .invalidChunkedEncoding
  else .ok { s.copyStateFromActual a with nestLevel := -tag - 1, inChunk := false, avail := 0 }

/-- A chunk has just ended and its end tag has not been read: end the value, and go on. -/
def endEndedValue (s : ValueChunkIn) : Except ChunkExn ValueChunkIn := do
  let (tag, a) ← s.actual.peekChunkTag host refill
  let s := s.copyStateFromActual a
  if tag < 0 then do
    let s ← s.endInputValue host refill
    .ok { s with inChunk := true }
  else .ok s

/-! ### Reading -/

/-- The part of `get_octet_array` for the octets that remain in the chunk: what it reads, the size
afterwards, and the stream. Where more octets remain, the size is left as it is. -/
def getRemaining (size : ℕ) (s : ValueChunkIn) :
    Except ChunkExn (List UInt8 × ℕ × ValueChunkIn) :=
  if s.remaining = 0 then .ok ([], size, s)
  else if s.remaining ≤ size then do
    let (b, a) ← s.actual.getOctetArray refill s.remaining
    .ok (b, size - s.remaining,
      { s with actual := a, avail := 0, remaining := 0, remaining_lt := by decide })
  else do
    let (b, a) ← s.actual.getOctetArray refill size
    .ok (b, size, { s with
      actual := a
      avail := s.remaining - size
      remaining := s.remaining - size
      remaining_lt := (Nat.sub_le _ _).trans_lt s.remaining_lt })

/-- The loop `while (size)` of `get_octet_array`. -/
def getChunks (size : ℕ) (s : ValueChunkIn) : Except ChunkExn (List UInt8 × ValueChunkIn) :=
  if size = 0 then .ok ([], s)
  else
    match s.actual.unmarshalLong host refill with
    | .error e => .error e
    | .ok (len, a) =>
      if len ≤ 0 ∨ 0x7fffff00 ≤ len then .error .invalidChunkedEncoding
      else if len.toNat < size then
        match a.getOctetArray refill len.toNat with
        | .error e => .error e
        | .ok (b, a) =>
          (getChunks (size - len.toNat) { s with actual := a }).map fun r => (b ++ r.1, r.2)
      else
        (a.getOctetArray refill size).map fun r =>
          (r.1, (s.copyStateFromActual r.2).setEnd (len.toNat - size))
termination_by size
decreasing_by omega

/-- `get_octet_array` without alignment. -/
def getOctetArray (size : ℕ) (s : ValueChunkIn) : Except ChunkExn (List UInt8 × ValueChunkIn) :=
  if size ≤ s.avail then .ok (s.actual.unread.take size, s.move refill size)
  else if s.inHeader then
    if s.inChunk then .error .assertionFailure
    else do
      let (b, a) ← s.actual.getOctetArray refill size
      .ok (b, s.copyStateFromActual a)
  else if ¬s.inChunk then .error .invalidChunkedEncoding
  else do
    let b := s.actual.unread.take s.avail
    let (b', size', s') ← getRemaining refill (size - s.avail) (s.move refill s.avail)
    let s' ← if size' = size then s'.endEndedValue host refill else .ok s'
    let (b'', s') ← getChunks host refill size' s'
    .ok (b ++ b' ++ b'', s')

/-! ### Skipping -/

/-- The part of `skipInput` for the octets that remain in the chunk: the size afterwards, a
`CORBA::ULong`, and the stream. -/
def skipRemaining (size : ℕ) (s : ValueChunkIn) : Except ChunkExn (ℕ × ValueChunkIn) :=
  if s.remaining = 0 then .ok (size, s)
  else do
    let a ← s.actual.skipInput refill s.remaining
    .ok ((size + 2 ^ 32 - s.remaining) % 2 ^ 32,
      { s.copyStateFromActual a with remaining := 0, remaining_lt := by decide })

/-- The loop `while (size)` of `skipInput`. At its end `size` is zero when it is taken away from
`len`. -/
def skipChunks (size : ℕ) (s : ValueChunkIn) : Except ChunkExn ValueChunkIn :=
  if size = 0 then .ok s
  else
    match s.actual.unmarshalLong host refill with
    | .error e => .error e
    | .ok (len, a) =>
      if len ≤ 0 ∨ 0x7fffff00 ≤ len then .error .invalidChunkedEncoding
      else if len.toNat < size then
        match a.skipInput refill len.toNat with
        | .error e => .error e
        | .ok a => skipChunks (size - len.toNat) { s with actual := a }
      else
        (a.skipInput refill size).map fun a => (s.copyStateFromActual a).setEnd len.toNat
termination_by size
decreasing_by omega

def skipInput (size : ℕ) (s : ValueChunkIn) : Except ChunkExn ValueChunkIn :=
  if size ≤ s.avail then .ok (s.move refill size)
  else if s.inHeader then
    if s.inChunk then .error .assertionFailure
    else do
      let a ← s.actual.skipInput refill size
      .ok (s.copyStateFromActual a)
  else if ¬s.inChunk then .error .invalidChunkedEncoding
  else do
    let (size', s') ← skipRemaining refill (size - s.avail) (s.move refill s.avail)
    let s' ← if size' = size then s'.endEndedValue host refill else .ok s'
    skipChunks host refill size' s'

end ValueChunkIn

end OmniORB
