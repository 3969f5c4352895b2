import OmniORB.Giop.Input12

/-!
# Writing GIOP 1.2 messages

The writing half of `giopImpl12.cc`, with the parts of `cdrStream` that reach it. The message is
sent in fragments as the buffer fills up, unless its size was computed beforehand. The connection
takes all that is sent; no compressor is linked in, and the host is little-endian.
-/

namespace OmniORB

open Library

/-- The parameters of the code, what memory holds where padding goes, by the number of the octet in
the output, and how often a loop may go round. -/
structure OutEnv where
  cfg : Config
  stale : ℕ → UInt8
  fuel : ℕ

def MsgType.octet : MsgType → UInt8
  | .request => 0
  | .reply => 1
  | .cancelRequest => 2
  | .locateRequest => 3
  | .locateReply => 4
  | .closeConnection => 5
  | .messageError => 6
  | .fragment => 7

/-- `a - b` as a `CORBA::ULong` -/
def ulongSub (a b : ℕ) : ℕ := (a + 2 ^ 32 - b % 2 ^ 32) % 2 ^ 32

/-- What writing uses of a `giopStream`. `buffer` holds the octets from the start of the current
output buffer, which is aligned to 8, to `pd_outb_mkr`; `outEnd` is an offset from the same start.
Of all that was sent and is in the buffer, `headers` octets are headers of messages and
fragments. -/
structure GiopOut where
  buffer : List UInt8
  outEnd : ℕ
  outputFragmentSize : ℕ
  outputMessageSize : ℕ
  requestId : ℕ
  sent : List UInt8
  headers : ℕ
  deriving DecidableEq, Repr

namespace GiopOut

variable (env : OutEnv)

def outMkr (s : GiopOut) : ℕ := s.buffer.length

/-- The body octets that were written, padding included. -/
def emitted (s : GiopOut) : ℕ := s.sent.length + s.buffer.length - s.headers

/-- Write octets into the buffer. -/
def put (b : List UInt8) (s : GiopOut) : GiopOut := { s with buffer := s.buffer ++ b }

/-- The padding in front of what is aligned to `align`. -/
def padding (align : Alignment) (s : GiopOut) : List UInt8 :=
  (List.range (alignTo s.outMkr align.size - s.outMkr)).map fun i =>
    env.stale (s.sent.length + s.outMkr + i)

/-- `pd_outb_mkr = outMkr(align)` -/
def alignMkr (align : Alignment) (s : GiopOut) : GiopOut := s.put (s.padding env align)

/-- The `CORBA::ULong` at offset 8 of the buffer. -/
def setSizeField (n : ℕ) (s : GiopOut) : GiopOut :=
  { s with buffer := s.buffer.take 8 ++ ulongOctets n ++ s.buffer.drop 12 }

/-- `hdr[6] |= 0x2` -/
def setMoreFragments (s : GiopOut) : GiopOut :=
  { s with buffer := s.buffer.modify 6 (· ||| 0x2) }

def outputHasReachedLimit (s : GiopOut) : Bool := s.outEnd = 12

/-- The first eight octets of a header. -/
def giopHeader (mtype : MsgType) : List UInt8 := [0x47, 0x49, 0x4f, 0x50, 1, 2, 1, mtype.octet]

def outputNewMessage (mtype : MsgType) (requestId : ℕ) : GiopOut where
  buffer := giopHeader mtype ++ ulongOctets 0xffffffff
  outEnd := env.cfg.bufferSize
  outputFragmentSize := 0
  outputMessageSize := 0
  requestId := requestId
  sent := []
  headers := 12

def outputSetFragmentSize (msz : ℕ) (s : GiopOut) : Except Exn GiopOut :=
  if env.cfg.giopMaxMsgSize < msz then .error .marshalMessageSizeExceedLimitOnClient
  else .ok { s with outputFragmentSize := msz }

/-- The end of the buffer of a new fragment behind `total` octets of the message. -/
def fragmentEnd (total : ℕ) : ℕ :=
  let avail := (sizeSub env.cfg.giopMaxMsgSize total + 7) % 2 ^ 64 / 8 * 8
  if 16 + avail < env.cfg.bufferSize then 16 + avail else env.cfg.bufferSize

/-- Start a fragment in the buffer that was sent. -/
def startFragment (total : ℕ) (s : GiopOut) : GiopOut :=
  { s with
    sent := s.sent ++ s.buffer
    buffer := giopHeader .fragment ++ (s.buffer.take 12).drop 8 ++ ulongOctets s.requestId
    outEnd := fragmentEnd env total
    outputMessageSize := total
    headers := s.headers + 16 }

def outputFlush (knownFragmentSize : Bool) (s : GiopOut) : Except Exn GiopOut :=
  let fsz := s.outMkr
  -- a `CORBA::Long`, which the sums below turn into a `CORBA::ULong`
  let msz := s.outputMessageSize % 2 ^ 32
  if s.outputFragmentSize = 0 then
    let s := s.setMoreFragments
    let s := if knownFragmentSize then s else s.setSizeField (ulongSub fsz 12)
    let sz := sizeField s.buffer
    let total := if msz ≠ 0 then ulongSub (msz + sz) 4 else sz
    if env.cfg.giopMaxMsgSize < total then .error .marshalMessageSizeExceedLimitOnClient
    else .ok (s.startFragment env total)
  else
    .ok { s with
      sent := s.sent ++ s.buffer
      buffer := []
      outEnd := env.cfg.bufferSize
      outputMessageSize := if msz ≠ 0 then ulongSub (msz + fsz) 16 else ulongSub fsz 12 }

def getReserveSpace (align : Alignment) (sz : ℕ) (s : GiopOut) : Except Exn GiopOut :=
  if s.outputHasReachedLimit then .error .marshalMessageSizeExceedLimitOnClient
  else
    let s := s.alignMkr env align
    if sz = 0 then .ok s
    else if s.outMkr < s.outEnd then
      if s.outMkr + sz ≤ s.outEnd then .ok s else .error .assertionFailure
    else do
      -- the buffer has been filled up completely
      let s ← s.outputFlush env false
      if s.outputHasReachedLimit then .error .marshalMessageSizeExceedLimitOnClient else .ok s

/-- The loop `while (sz)` of `copyOutputData`. -/
def copyLoop : ℕ → List UInt8 → GiopOut → Except Exn GiopOut
  | 0, b, s => if b = [] then .ok s else .error .outOfFuel
  | fuel + 1, b, s =>
    if b = [] then .ok s
    else
      let avail := min (s.outEnd - s.outMkr) b.length
      let s := s.put (b.take avail)
      let b := b.drop avail
      if s.outMkr = s.outEnd then
        match s.outputFlush env false with
        | .error e => .error e
        | .ok s =>
          if b ≠ [] ∧ s.outputHasReachedLimit then
            .error .marshalMessageSizeExceedLimitOnClient
          else copyLoop fuel b s
      else copyLoop fuel b s

/-- The part of `copyOutputData` that sends `b` without copying it. -/
def sendDirect (b : List UInt8) (s : GiopOut) : Except Exn GiopOut :=
  let current := s.outMkr
  -- fill the buffer up first, so that it is not a small chunk
  let filler :=
    if current < env.cfg.minChunkBeforeDirectSend then
      min (env.cfg.minChunkBeforeDirectSend - current) (s.outEnd - current)
    else 0
  let s := s.put (b.take filler)
  let b := b.drop filler
  let leftover := (s.outMkr + b.length) % 8
  let direct := b.length - leftover
  let s :=
    if s.outputFragmentSize = 0 then s.setSizeField (ulongSub (s.outMkr + direct) 12) else s
  match s.outputFlush env true with
  | .error e => .error e
  | .ok s =>
    let s := { s with sent := s.sent ++ b.take direct }
    if leftover ≠ 0 ∧ s.outputHasReachedLimit then .error .marshalMessageSizeExceedLimitOnClient
    else copyLoop env env.fuel (b.drop direct) s

def copyOutputData (b : List UInt8) (align : Alignment) (s : GiopOut) : Except Exn GiopOut :=
  if s.outputHasReachedLimit then .error .marshalMessageSizeExceedLimitOnClient
  else if s.outEnd < alignTo s.outMkr align.size then .error .assertionFailure
  else
    let s := s.alignMkr env align
    if env.cfg.directSendCutOff ≤ b.length then s.sendDirect env b else copyLoop env env.fuel b s

/-- Marshal a primitive type of the size of its alignment. -/
def marshalPrimitive (align : Alignment) (b : List UInt8) : ℕ → GiopOut → Except Exn GiopOut
  | 0, _ => .error .outOfFuel
  | fuel + 1, s =>
    if alignTo s.outMkr align.size + align.size ≤ s.outEnd then .ok ((s.alignMkr env align).put b)
    else
      match s.getReserveSpace env align align.size with
      | .error e => .error e
      | .ok s => marshalPrimitive align b fuel s

def alignOutput (align : Alignment) : ℕ → GiopOut → Except Exn GiopOut
  | 0, _ => .error .outOfFuel
  | fuel + 1, s =>
    if s.outEnd < alignTo s.outMkr align.size then
      match s.getReserveSpace env align 0 with
      | .error e => .error e
      | .ok s => alignOutput align fuel s
    else .ok (s.alignMkr env align)

def putSmallOctetArray (b : List UInt8) (s : GiopOut) : Except Exn GiopOut :=
  if s.outMkr + b.length ≤ s.outEnd then .ok (s.put b) else s.copyOutputData env b .align1

def currentOutputPtr (s : GiopOut) : ℕ :=
  let fsz := s.outMkr
  let msz := s.outputMessageSize
  if msz ≠ 0 then sizeSub (msz + fsz) 16 else sizeSub fsz 12

/-- What `outputMessageEnd` does to the buffer before it sends it. -/
def closeBuffer (s : GiopOut) : Except Exn GiopOut :=
  if s.outputFragmentSize = 0 then
    let sz := ulongSub s.outMkr 12
    if s.outputMessageSize = 0 then
      -- the whole message is in the buffer, where the size of its header is
      let hdrsz := sizeField s.buffer
      if hdrsz = 0xffffffff then .error .assertionFailure
      else if alignTo hdrsz 8 = sz + 12 then
        .ok ({ s with buffer := s.buffer.take hdrsz }.setSizeField (ulongSub hdrsz 12))
      else .ok (s.setSizeField sz)
    else .ok (s.setSizeField sz)
  else .ok s

/-- `outputMessageEnd`: all octets that were sent for the message. -/
def outputMessageEnd (s : GiopOut) : Except Exn (List UInt8) :=
  if s.buffer = [] then .ok s.sent
  else
    match s.closeBuffer with
    | .error e => .error e
    | .ok s => .ok (s.sent ++ s.buffer)

end GiopOut

/-! ### Programs -/

/-- What a writer does to a stream. The size of an array is an `int`. -/
inductive WriteOp where
  | primitive (align : Alignment) (b : List UInt8) (hlen : b.length = align.size)
  | align (align : Alignment)
  | octetArray (b : List UInt8) (align : Alignment) (hlen : b.length < 2 ^ 31)
  | smallOctetArray (b : List UInt8) (hlen : b.length < 2 ^ 31)

namespace WriteOp

def alignment : WriteOp → Alignment
  | .primitive a _ _ => a
  | .align a => a
  | .octetArray _ a _ => a
  | .smallOctetArray _ _ => .align1

def octets : WriteOp → List UInt8
  | .primitive _ b _ => b
  | .align _ => []
  | .octetArray b _ _ => b
  | .smallOctetArray b _ => b

/-- `cdrCountingStream`: where a position is moved to. -/
def count (pos : ℕ) (op : WriteOp) : ℕ := alignTo pos op.alignment.size + op.octets.length

end WriteOp

namespace GiopOut

variable (env : OutEnv)

def write : WriteOp → GiopOut → Except Exn GiopOut
  | .primitive align b _, s => s.marshalPrimitive env align b env.fuel
  | .align align, s => s.alignOutput env align env.fuel
  | .octetArray b align _, s => s.copyOutputData env b align
  | .smallOctetArray b _, s => s.putSmallOctetArray env b

def writes : List WriteOp → GiopOut → Except Exn GiopOut
  | [], s => .ok s
  | op :: ops, s =>
    match s.write env op with
    | .error e => .error e
    | .ok s => writes ops s

/-- How the size of a message is found: fragment by fragment, with the size of the message's header
left in the buffer, or by counting what is going to be written. -/
inductive Sizing where
  | fragments (hdrsz : ℕ) (hle : 12 ≤ hdrsz) (hlt : hdrsz < 2 ^ 32)
  | counted

/-- A new message, before anything is written. -/
def start (sizing : Sizing) (mtype : MsgType) (requestId : ℕ) (ops : List WriteOp) :
    Except Exn GiopOut :=
  match sizing with
  | .fragments hdrsz _ _ => .ok ((outputNewMessage env mtype requestId).setSizeField hdrsz)
  | .counted =>
    let total := ops.foldl WriteOp.count 12
    match (outputNewMessage env mtype requestId).outputSetFragmentSize env (total - 12) with
    | .error e => .error e
    | .ok s => .ok (s.setSizeField (total - 12))

end GiopOut

end OmniORB
