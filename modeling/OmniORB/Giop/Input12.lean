import OmniORB.Giop.Call

/-!
# Reading GIOP 1.2 messages

The reading half of `giopImpl12.cc`, function by function. A loop goes round at most `env.fuel`
times. Waiting for the read lock is not modelled here: who may run which function when is said where
the functions are put together to runs.
-/

namespace OmniORB

open Library

namespace M

variable (env : Env)

/-! ### Demultiplexing -/

/-- Fetch the rest of a message that is queued for `target`. -/
def queueRest (target : Ref) : ℕ → ℕ → M PUnit
  | 0, fetchsz => if fetchsz = 0 then pure ⟨⟩ else throw .outOfFuel
  | fuel + 1, fetchsz =>
    if fetchsz = 0 then pure ⟨⟩
    else do
      let p ← onStrand (Strand.inputChunk env.cfg fetchsz)
      modifyCall target fun c => { c with input := c.input ++ [p] }
      queueRest target fuel (fetchsz - p.dataSize)

/-- Fetch the rest of a message that nobody waits for. -/
def discardRest : ℕ → ℕ → M PUnit
  | 0, fetchsz => if fetchsz = 0 then pure ⟨⟩ else throw .outOfFuel
  | fuel + 1, fetchsz =>
    if fetchsz = 0 then pure ⟨⟩
    else do
      let p ← onStrand (Strand.inputChunk env.cfg fetchsz)
      discardRest fuel (fetchsz - p.dataSize)

/-- Search the clients for the receiver of a Reply, a LocateReply or a Fragment. -/
def matchClient (mtype : MsgType) (reqid : ℕ) : M (Option Ref) := do
  let s ← get
  match s.findInUse s.clients reqid with
  | none => return none
  | some r =>
    if (s.call r).inputFullyBuffered then
      inputTerminalProtocolError "Message claims to belong to a completed reply"
    else if (s.call r).inputMatchedId then
      if mtype ≠ .fragment then
        inputTerminalProtocolError "Reply header has already been received"
      else return some r
    else if mtype = .fragment then
      inputTerminalProtocolError "Reply header not seen for message fragment"
    else do
      modifyCall r fun c => { c with inputMatchedId := true }
      return some r

/-- A `GIOP_S` for a new Request or LocateRequest. -/
def newServer (reqid : ℕ) : M PUnit := do
  let s ← get
  if (s.findInUse s.servers reqid).isSome then
    inputTerminalProtocolError "Duplicate request id"
  else
    match s.servers.reverse.find? fun r => (s.call r).state = .unUsed with
    | some r =>
      modifyCall r fun c => { c with state := .inputPartiallyBuffered, requestId := reqid }
    | none =>
      assert (s.servers ≠ [])
      modify fun s =>
        s.addServer { Call.new with state := .inputPartiallyBuffered, requestId := reqid }

/-- Search the servers for the receiver of a Request, a CancelRequest or a Fragment. -/
def matchServer (reqid : ℕ) : M (Option Ref) := do
  let s ← get
  match s.findInUse s.servers reqid with
  | none => return none
  | some r =>
    if (s.call r).inputFullyBuffered then
      inputTerminalProtocolError "Message claims to belong to a completed request"
    else return some r

/-- Whether this side takes part in the strand as a client, and as a server. -/
def acceptsReplies (s : Strand) : Bool := s.isClient || s.isBiDir

def acceptsRequests (s : Strand) : Bool := !s.isClient || s.isBiDir

/-- The call that a message is for. -/
def matchTarget (mtype : MsgType) (reqid : ℕ) : M (Option Ref) := do
  let s ← get
  match mtype with
  | .reply | .locateReply =>
    if acceptsReplies s.strand then matchClient mtype reqid
    else inputTerminalProtocolError "Server received an invalid reply message"
  | .fragment => do
    match ← matchClient mtype reqid with
    | some r => return some r
    | none => matchServer reqid
  | .request | .locateRequest =>
    if acceptsRequests s.strand then do
      newServer reqid
      matchServer reqid
    else inputTerminalProtocolError "Request message received by client"
  | .cancelRequest =>
    if acceptsRequests s.strand then matchServer reqid
    else inputTerminalProtocolError "Client received a CancelRequest message"
  | _ => return none

/-- What becomes of a message for the call `target` when it is in `pd_input` in full. -/
def messageQueued (mtype : MsgType) (isfull : Bool) (target : Ref) : M PUnit :=
  if mtype = .cancelRequest then
    -- `handleCancelRequest`
    modifyCall target fun c => { c with state := .waitingForReply }
  else if isfull then
    match target with
    | .client _ => modifyCall target fun c => { c with inputFullyBuffered := true }
    | .server _ =>
      modifyCall target fun c => { c with inputFullyBuffered := true, state := .inputFullyBuffered }
  else pure ⟨⟩

/-- Give a message to the call it is for, or discard it. -/
def deliver (g : Ref) (b : Buffer) (mtype : MsgType) : Option Ref → M PUnit
  | none => discardRest env env.fuel (b.size - b.dataSize)
  | some target => do
    let c ← getCall target
    if target = g then
      assert (c.input = [])
      releaseCurrent env.cfg g
      modifyCall g fun c => { c with input := [b] }
    else
      assert c.currentInputBuffer.isNone
      modifyCall target fun c => { c with input := c.input ++ [b] }
      queueRest env target env.fuel (b.size - b.dataSize)
      messageQueued mtype (!env.moreFragments b) target

/-- A message with a request id. -/
def queueForCall (g : Ref) (b : Buffer) (mtype : MsgType) : M PUnit := do
  let target ← matchTarget mtype (env.ulongAt b 12)
  deliver env g b mtype target

/-- CloseConnection -/
def orderlyShutdown : M PUnit := do
  let s ← get
  if acceptsReplies s.strand then do
    modify fun s => { s with strand := { s.strand with orderlyClosed := true } }
    inputTerminalProtocolError "Orderly connection shutdown"
  else inputTerminalProtocolError "Orderly connection shutdown on server"

def inputQueueMessage (g : Ref) (b : Buffer) : M PUnit :=
  let hdr := env.octet b
  match MsgType.ofOctet (hdr 7) with
  | some .closeConnection => orderlyShutdown
  | some mtype =>
    if hdr 4 ≠ 1 ∨ hdr 5 ≠ 2 then
      inputTerminalProtocolError "Invalid GIOP message version"
    else if mtype = .messageError then
      inputTerminalProtocolError "Received a MessageError message"
    else queueForCall env g b mtype
  | none => inputTerminalProtocolError "Invalid GIOP message version"

def inputNewServerMessage (g : Ref) : M PUnit := do
  let c ← getCall g
  assert c.currentInputBuffer.isNone
  let b ← onStrand (Strand.inputMessage env.cfg env.fuel)
  modifyCall g fun c => { c with currentInputBuffer := some b }
  let hdr := env.octet b
  let requeue : M PUnit := do
    modifyCall g fun c => { c with currentInputBuffer := none }
    inputQueueMessage env g b
  let s ← get
  if hdr 4 ≠ 1 ∨ 2 < hdr 5 then inputTerminalProtocolError "Invalid message version/type"
  else
    match MsgType.ofOctet (hdr 7) with
    | none => inputTerminalProtocolError "Invalid message version/type"
    | some .request | some .locateRequest | some .messageError | some .closeConnection =>
      pure ⟨⟩
    | some .reply | some .locateReply =>
      if s.strand.isBiDir then requeue
      else inputTerminalProtocolError "Server received an invalid reply message"
    | some .fragment | some .cancelRequest => requeue

/-- Read messages until there is one for `g`, and make its first buffer the current one. -/
def awaitInput (g : Ref) : ℕ → M PUnit
  | 0 => throw .outOfFuel
  | fuel + 1 => do
    let c ← getCall g
    if c.input = [] then do
      let b ← onStrand (Strand.inputMessage env.cfg env.fuel)
      inputQueueMessage env g b
      awaitInput g fuel
    else takeInput g

/-! ### Message headers -/

def inputNewFragment (g : Ref) : M PUnit := do
  releaseCurrent env.cfg g
  awaitInput env g env.fuel
  let c ← getCall g
  let b := c.buffer
  let s ← get
  if MsgType.ofOctet (env.octet b 7) = some .cancelRequest then
    if acceptsRequests s.strand then throw .terminateProcessing
    else inputTerminalProtocolError "Client received a CancelRequest message"
  else if env.byteSwap b ≠ c.unmarshalByteSwap then
    inputTerminalProtocolError "Fragment has different byte ordering to initial message"
  else
    modifyCall g fun c =>
      { c with
        inbMkr := 16
        inbEnd := b.dataSize
        inputExpectAnotherFragment := env.moreFragments b
        inputMessageSize := c.inputMessageSize + b.size - 16
        inputFragmentToCome := b.size - b.dataSize }

/-- Set the stream up for the message in the current buffer, to be read from offset `mkr`. -/
def inputFirstFragment (g : Ref) (mkr : ℕ) : M PUnit :=
  modifyCall g fun c =>
    { c with
      unmarshalByteSwap := env.byteSwap c.buffer
      inbMkr := mkr
      inbEnd := c.buffer.dataSize
      inputExpectAnotherFragment := env.moreFragments c.buffer
      inputMessageSize := c.buffer.size
      inputFragmentToCome := c.buffer.size - c.buffer.dataSize }

/-! ### Message bodies -/

end M

namespace Call

/-- The octets between the markers, `inEnd() - inMkr()`. -/
def avail (c : Call) : ℕ := sizeSub c.inbEnd c.inbMkr

def currentInputPtr (c : Call) : ℕ :=
  sizeT (c.inputMessageSize - c.inputFragmentToCome - ((c.inbEnd : ℤ) - c.inbMkr))

def inputRemaining (cfg : Config) (c : Call) : ℕ :=
  if c.inputExpectAnotherFragment then sizeSub cfg.giopMaxMsgSize c.currentInputPtr
  else (c.inputFragmentToCome + c.avail) % 2 ^ 64

/-- Whether the message has grown over the limit. -/
def exceedsLimit (cfg : Config) (c : Call) : Bool := cfg.giopMaxMsgSize < sizeT c.inputMessageSize

end Call

namespace M

variable (env : Env)

/-- Make the next octets of the current message the current buffer, from `pd_input` or else from the
strand. -/
def nextChunk (g : Ref) : M PUnit := do
  let c ← getCall g
  if c.input = [] then do
    let b ← onStrand (Strand.inputChunk env.cfg c.inputFragmentToCome)
    modifyCall g fun c => { c with currentInputBuffer := some b }
  else takeInput g
  modifyCall g fun c =>
    { c with
      inbMkr := 0
      inbEnd := c.buffer.dataSize
      inputFragmentToCome := sizeSub c.inputFragmentToCome c.buffer.dataSize }

/-- Go on with the next fragment, which may make the message too large. -/
def nextFragment (g : Ref) : M PUnit := do
  inputNewFragment env g
  let c ← getCall g
  if c.exceedsLimit env.cfg then throw .marshalMessageSizeExceedLimit else pure ⟨⟩

def getInputData (g : Ref) (align : Alignment) (sz : ℕ) : ℕ → M PUnit
  | 0 => throw .outOfFuel
  | fuel + 1 => do
    let c ← getCall g
    let last := alignTo c.inbMkr align.size
    if last + sz ≤ c.inbEnd then pure ⟨⟩
    else
      let extra := last + sz - c.inbEnd
      let more := decide (c.inputFragmentToCome ≠ 0) || c.inputExpectAnotherFragment
      if extra ≠ sz ∧ more then
        if c.inputExpectAnotherFragment then
          inputTerminalProtocolError "Message fragmented at incorrect boundary"
        else throw .assertionFailure
      else if c.inputFragmentToCome < extra ∧ !c.inputExpectAnotherFragment then
        throw .marshalPassEndOfMessage
      else if c.inputFragmentToCome = 0 then do
        nextFragment env g
        getInputData g align extra fuel
      else do
        releaseCurrent env.cfg g
        nextChunk env g

/-- The loop of `copyInputData`; `copying` tells whether there is a place to copy the octets to. -/
def copyLoop (g : Ref) (copying : Bool) : ℕ → ℕ → M (List UInt8)
  | 0, _ => throw .outOfFuel
  | fuel + 1, sz => do
    let c ← getCall g
    let avail := min c.avail sz
    let x := if copying then env.octets c.buffer c.inbMkr avail else []
    modifyCall g fun c => { c with inbMkr := c.inbMkr + avail }
    let sz := sz - avail
    if sz = 0 then return x
    else do
      let c ← getCall g
      if c.inputFragmentToCome < sz ∧ !c.inputExpectAnotherFragment then
        throw .marshalPassEndOfMessage
      else if c.inputFragmentToCome = 0 then do
        nextFragment env g
        return x ++ (← copyLoop g copying fuel sz)
      else do
        releaseCurrent env.cfg g
        let c ← getCall g
        if c.input = [] ∧ copying ∧ env.cfg.directReceiveCutOff ≤ sz then do
          let transz := min c.inputFragmentToCome sz / 8 * 8
          let y ← onStrand (Strand.inputCopyChunk transz)
          modifyCall g fun c =>
            { c with inputFragmentToCome := c.inputFragmentToCome - transz }
          return x ++ y ++ (← copyLoop g copying fuel (sz - transz))
        else do
          nextChunk env g
          return x ++ (← copyLoop g copying fuel sz)

def copyInputData (g : Ref) (copying : Bool) (sz : ℕ) (align : Alignment) : M (List UInt8) := do
  let c ← getCall g
  let last := alignTo c.inbMkr align.size
  if c.inbEnd < last then
    if c.inputFragmentToCome = 0 ∧ !c.inputExpectAnotherFragment then
      throw .marshalPassEndOfMessage
    else if c.inputExpectAnotherFragment then
      inputTerminalProtocolError "Message fragmented at incorrect boundary (bulk copy)"
    else throw .assertionFailure
  else do
    modifyCall g fun c => { c with inbMkr := last }
    if sz = 0 then return [] else copyLoop env g copying env.fuel sz

def skipInputData (g : Ref) (sz : ℕ) : M (List UInt8) := copyInputData env g false sz .align1

/-- Unmarshal a primitive type of the size of its alignment. -/
def unmarshalPrimitive (g : Ref) (align : Alignment) : ℕ → M (List UInt8)
  | 0 => throw .outOfFuel
  | fuel + 1 => do
    let c ← getCall g
    let p1 := alignTo c.inbMkr align.size
    let p2 := p1 + align.size
    if p2 ≤ c.inbEnd then do
      modifyCall g fun c => { c with inbMkr := p2 }
      return env.octets c.buffer p1 align.size
    else do
      getInputData env g align align.size env.fuel
      unmarshalPrimitive g align fuel

def alignInput (g : Ref) (align : Alignment) : ℕ → M PUnit
  | 0 => throw .outOfFuel
  | fuel + 1 => do
    let c ← getCall g
    let p1 := alignTo c.inbMkr align.size
    if c.inbEnd < p1 then do
      getInputData env g align 0 env.fuel
      alignInput g align fuel
    else modifyCall g fun c => { c with inbMkr := p1 }

end M

/-- What a reader does to a stream. -/
inductive ReadOp where
  | primitive (align : Alignment)
  | align (align : Alignment)
  | octetArray (size : ℕ) (align : Alignment)
  | skip (size : ℕ)
  deriving DecidableEq, Repr

namespace M

variable (env : Env)

def read (g : Ref) : ReadOp → M (List UInt8)
  | .primitive align => unmarshalPrimitive env g align env.fuel
  | .align align => do
    alignInput env g align env.fuel
    return []
  | .octetArray size align => copyInputData env g true size align
  | .skip size => skipInputData env g size

/-- A sequence of reads, and all they give. -/
def reads (g : Ref) : List ReadOp → M (List UInt8)
  | [] => return []
  | op :: ops => do
    let x ← read env g op
    return x ++ (← reads g ops)

/-! ### Whole messages -/

/-- The message type that a caller expects, `unmarshalReplyHeader` or `unmarshalLocateReply`. What
follows in the header is read by `header`. -/
def unmarshalReplyHeader (g : Ref) (expected : MsgType) (header : List ReadOp) :
    M (List UInt8) := do
  let c ← getCall g
  if MsgType.ofOctet (env.octet c.buffer 7) ≠ some expected then
    inputTerminalProtocolError
      (if expected = .reply then "Incorrect message type when expecting a Reply"
        else "Incorrect message type when expecting a LocateReply")
  else reads env g header

def inputReplyBegin (g : Ref) (expected : MsgType) (header : List ReadOp) : M (List UInt8) := do
  let s ← get
  if !s.strand.isBiDir ∧ !(s.call g).inputFullyBuffered ∧ s.rdLocked ≠ some g then rdLock g
  if s.strand.isBiDir ∧ s.strand.dying then
    throw (.commFailure "Connection closed while waiting for a reply on a bidirectional connection")
  else do
    if (s.call g).currentInputBuffer.isNone then awaitInput env g env.fuel
    inputFirstFragment env g 16
    let x ← unmarshalReplyHeader env g expected header
    let c ← getCall g
    if c.exceedsLimit env.cfg then throw .marshalMessageSizeExceedLimitOnClient
    else return x

def unmarshalWildCardRequestHeader (g : Ref) : M PUnit := do
  modifyCall g fun c =>
    { c with
      inputMatchedId := true
      requestType := (MsgType.ofOctet (env.octet c.buffer 7)).getD .messageError }
  let c ← getCall g
  match c.requestType with
  | .request | .locateRequest | .cancelRequest => do
    let x ← unmarshalPrimitive env g .align4 env.fuel
    modifyCall g fun c =>
      { c with
        requestId :=
          if c.unmarshalByteSwap then
            ulongValue (octetAt x 3) (octetAt x 2) (octetAt x 1) (octetAt x 0)
          else ulongValue (octetAt x 0) (octetAt x 1) (octetAt x 2) (octetAt x 3) }
  | .closeConnection => inputTerminalProtocolError "Orderly connection shutdown"
  | _ => inputTerminalProtocolError "Unknown GIOP message type"

/-- The loop that gets a server the first buffer of its message. -/
def awaitRequest (g : Ref) : ℕ → M PUnit
  | 0 => throw .outOfFuel
  | fuel + 1 => do
    let c ← getCall g
    if c.currentInputBuffer.isSome then pure ⟨⟩
    else if c.input = [] then do
      inputNewServerMessage env g
      awaitRequest g fuel
    else do
      takeInput g
      awaitRequest g fuel

/-- `inputMessageBegin` with `unmarshalWildCardRequestHeader` -/
def inputMessageBegin (g : Ref) : M PUnit := do
  let s ← get
  if !(s.call g).inputFullyBuffered ∧ s.rdLocked ≠ some g then rdLock g
  awaitRequest env g env.fuel
  let c ← getCall g
  if env.octet c.buffer 5 ≤ 1 then throw .otherVersion
  else do
    inputFirstFragment env g 12
    unmarshalWildCardRequestHeader env g
    let c ← getCall g
    if c.exceedsLimit env.cfg then throw .marshalMessageSizeExceedLimitOnServer else pure ⟨⟩

/-- The loop of `inputSkipWholeMessage` -/
def skipLoop (g : Ref) : ℕ → M PUnit
  | 0 => throw .outOfFuel
  | fuel + 1 => do
    modifyCall g fun c => { c with currentInputBuffer := none }
    let c ← getCall g
    if c.inputFragmentToCome ≠ 0 then do
      nextChunk env g
      skipLoop g fuel
    else if c.inputExpectAnotherFragment then do
      inputNewFragment env g
      skipLoop g fuel
    else pure ⟨⟩

def inputSkipWholeMessage (g : Ref) : M PUnit := do
  skipLoop env g env.fuel
  modifyCall g fun c => { c with inbMkr := c.inbEnd }

/-- Fetch fragments as long as there is nothing left of the last one. -/
def fetchEmptyFragments (g : Ref) : ℕ → M PUnit
  | 0 => throw .outOfFuel
  | fuel + 1 => do
    let c ← getCall g
    if c.inputExpectAnotherFragment ∧ c.inputFragmentToCome = 0 ∧ c.inbEnd = c.inbMkr then do
      inputNewFragment env g
      fetchEmptyFragments g fuel
    else pure ⟨⟩

def inputMessageEnd (g : Ref) (disgard : Bool) : M PUnit := do
  let s ← get
  if !s.strand.dying then do
    fetchEmptyFragments env g env.fuel
    let c ← getCall g
    let garbage := !disgard && c.inputRemaining env.cfg ≠ 0
    if garbage ∧ env.cfg.strictIIOP then
      inputTerminalProtocolError "Garbage left at end of input message"
    if disgard || garbage then inputSkipWholeMessage env g
    releaseCurrent env.cfg g
  rdUnLock g

end M

end OmniORB
