import OmniORB.Cdr.Stream
import OmniORB.Library.Pieces

/-!
# Reading GIOP messages from a connection

The buffers and the reading half of `giopStrand` and `giopStream`: `inputMessage`, `inputChunk` and
`inputCopyChunk` of `giopStream.cc`. A connection delivers the octets in pieces; a `Recv` that
returns nothing raises a communication failure. No compressor is linked in, so a message starts
with the magic of GIOP.
-/

namespace OmniORB

open Library

/-- The parameters of `giopStream` and `orbParameters`. -/
structure Config where
  bufferSize : ℕ
  directSendCutOff : ℕ
  directReceiveCutOff : ℕ
  minChunkBeforeDirectSend : ℕ
  giopMaxMsgSize : ℕ
  strictIIOP : Bool
  dvd_bufferSize : 8 ∣ bufferSize
  lt_bufferSize : 16 < bufferSize
  bufferSize_lt : bufferSize < 2 ^ 31
  le_directReceiveCutOff : 8 ≤ directReceiveCutOff
  le_directSendCutOff : minChunkBeforeDirectSend + 8 ≤ directSendCutOff
  le_giopMaxMsgSize : 8192 ≤ giopMaxMsgSize
  giopMaxMsgSize_lt : giopMaxMsgSize < 2 ^ 64

/-- The values that the sources initialise the parameters with. -/
def Config.initial : Config where
  bufferSize := 8192
  directSendCutOff := 16384
  directReceiveCutOff := 1024
  minChunkBeforeDirectSend := 1024
  giopMaxMsgSize := 2048 * 1024
  strictIIOP := true
  dvd_bufferSize := by decide
  lt_bufferSize := by decide
  bufferSize_lt := by decide
  le_directReceiveCutOff := by decide
  le_directSendCutOff := by decide
  le_giopMaxMsgSize := by decide
  giopMaxMsgSize_lt := by decide

/-! ### Headers -/

/-- Octet `i` of a header. -/
def octetAt (hdr : List UInt8) (i : ℕ) : UInt8 := hdr.getD i 0

/-- The size field of a message header, in the byte order that its flags octet gives. -/
def sizeField (hdr : List UInt8) : ℕ :=
  if octetAt hdr 6 &&& 0x1 = 1 then
    ulongValue (octetAt hdr 8) (octetAt hdr 9) (octetAt hdr 10) (octetAt hdr 11)
  else ulongValue (octetAt hdr 11) (octetAt hdr 10) (octetAt hdr 9) (octetAt hdr 8)

/-- The size of a message with its header, as a `CORBA::ULong`. -/
def headerSize (hdr : List UInt8) : ℕ := (sizeField hdr + 12) % 2 ^ 32

/-- `hdr[0..3]` is `GIOP`. -/
def hasMagic (hdr : List UInt8) : Bool := hdr.take 4 = [0x47, 0x49, 0x4f, 0x50]

def ensureSaneHeader (hdr : List UInt8) : Except Exn ℕ :=
  if hasMagic hdr then .ok (headerSize hdr)
  else .error (.commFailure "Input message is not a GIOP message")

/-! ### Buffers -/

/-- `giopStream_Buffer`: its capacity `end - start`, the octets from `start` to `last`, and the size
of the GIOP message they belong to. -/
structure Buffer where
  capacity : ℕ
  data : List UInt8
  size : ℕ
  deriving DecidableEq, Repr

namespace Buffer

def dataSize (b : Buffer) : ℕ := b.data.length

def newBuffer (cfg : Config) (sz : ℕ) : Buffer where
  capacity := if sz = 0 then cfg.bufferSize else sz
  data := []
  size := 0

lemma capacity_newBuffer_zero (cfg : Config) : (newBuffer cfg 0).capacity = cfg.bufferSize := by
  simp [newBuffer]

lemma capacity_newBuffer {sz : ℕ} (cfg : Config) (h : 0 < sz) : (newBuffer cfg sz).capacity = sz := by
  simp [newBuffer, Nat.pos_iff_ne_zero.mp h]

end Buffer

/-! ### Strands -/

/-- What reading uses of a `giopStrand`: the buffers with octets that were received early, the
capacities of the spare buffers, the connection, the roles, and the strand's state. -/
structure Strand where
  head : List Buffer
  spare : List ℕ
  connection : Pieces UInt8
  isClient : Bool
  isBiDir : Bool
  dying : Bool
  orderlyClosed : Bool

namespace Strand

/-- A spare buffer, or a new one. -/
def takeBuffer (cfg : Config) (s : Strand) : Buffer × Strand :=
  match s.spare with
  | c :: cs => ({ capacity := c, data := [], size := 0 }, { s with spare := cs })
  | [] => (Buffer.newBuffer cfg 0, s)

/-- The buffer that `inputMessage` starts with. -/
def nextBuffer (cfg : Config) (s : Strand) : Buffer × Strand :=
  match s.head with
  | b :: bs => (b, { s with head := bs })
  | [] => s.takeBuffer cfg

/-- `releaseInputBuffer`, by the holder of the read lock. -/
def releaseInputBuffer (cfg : Config) (b : Buffer) (s : Strand) : Strand :=
  if s.spare ≠ [] ∨ b.capacity < cfg.bufferSize then s
  else { s with spare := [b.capacity] }

/-- The capacity of the buffer that takes the next message of `rest`, and how much of `rest` it
takes. -/
def splitSize (cfg : Config) (rest : List UInt8) : Except Exn (ℕ × ℕ) :=
  let sz := rest.length
  if 12 ≤ sz then
    match ensureSaneHeader rest with
    | .error e => .error e
    | .ok msz =>
      if msz ≤ sz then .ok (msz, msz)
      else
        let msz := if cfg.bufferSize < msz then cfg.bufferSize else msz
        .ok (if msz < sz then alignTo sz 8 else msz, sz)
  else .ok (0, sz)

/-- The loop that puts the octets behind a message into buffers of their own, at most `fuel` times
round. -/
def splitMessages (cfg : Config) : ℕ → List UInt8 → Except Exn (List Buffer)
  | 0, _ => .error .outOfFuel
  | fuel + 1, rest =>
    match splitSize cfg rest with
    | .error e => .error e
    | .ok (msz, sz) =>
      let newbuf := { Buffer.newBuffer cfg msz with data := rest.take sz }
      if rest.drop sz = [] then .ok [newbuf]
      else
        match splitMessages cfg fuel (rest.drop sz) with
        | .error e => .error e
        | .ok bufs => .ok (newbuf :: bufs)

/-- What `inputMessage` does when a buffer holds at least a header. -/
def completeMessage (cfg : Config) (fuel : ℕ) (buf : Buffer) (s : Strand) :
    Except Exn (Buffer × Strand) :=
  match ensureSaneHeader buf.data with
  | .error e => .error e
  | .ok size =>
    if buf.dataSize < size then
      -- fetch as much of the message as can be fit into the buffer
      match s.connection.recvExactly (min size buf.capacity - buf.dataSize) with
      | none => .error (.commFailure "Error in network receive (continuation of message)")
      | some (x, c) => .ok ({ buf with data := buf.data ++ x, size }, { s with connection := c })
    else if size < buf.dataSize then
      match splitMessages cfg fuel (buf.data.drop size) with
      | .error e => .error e
      | .ok bufs =>
        .ok ({ buf with data := buf.data.take size, size }, { s with head := s.head ++ bufs })
    else .ok ({ buf with size }, s)

def inputMessage (cfg : Config) (fuel : ℕ) (s : Strand) : Except Exn (Buffer × Strand) :=
  if s.dying then .error (.commFailure "Connection is dying")
  else
    let (buf, s) := s.nextBuffer cfg
    match Pieces.recvAtLeast 12 buf.capacity buf.data s.connection with
    | none => .error (.commFailure "Error in network receive (start of message)")
    | some (data, c) => completeMessage cfg fuel { buf with data } { s with connection := c }

def inputChunk (cfg : Config) (maxsize : ℕ) (s : Strand) : Except Exn (Buffer × Strand) :=
  if s.head ≠ [] then
    .error (.commFailure "New message received in the middle of an existing message")
  else
    let (buf, s) := s.takeBuffer cfg
    match s.connection.recvExactly (min maxsize buf.capacity) with
    | none => .error (.commFailure "Error in network receive (input of chunk)")
    | some (x, c) => .ok ({ buf with data := x }, { s with connection := c })

def inputCopyChunk (size : ℕ) (s : Strand) : Except Exn (List UInt8 × Strand) :=
  if s.head ≠ [] then
    .error (.commFailure
      "New message received in the middle of an existing message (bulk receive)")
  else
    match s.connection.recvExactly size with
    | none => .error (.commFailure "Error in receive (input of bulk data)")
    | some (x, c) => .ok (x, { s with connection := c })

/-- The loop that fetches the rest of a message, at most `fuel` chunks. -/
def fetchRest (cfg : Config) : ℕ → ℕ → Strand → Except Exn (List Buffer × Strand)
  | 0, fetchsz, s => if fetchsz = 0 then .ok ([], s) else .error .outOfFuel
  | fuel + 1, fetchsz, s =>
    if fetchsz = 0 then .ok ([], s)
    else
      match inputChunk cfg fetchsz s with
      | .error e => .error e
      | .ok (p, s) =>
        match fetchRest cfg fuel (fetchsz - p.dataSize) s with
        | .error e => .error e
        | .ok (ps, s) => .ok (p :: ps, s)

end Strand

end OmniORB
