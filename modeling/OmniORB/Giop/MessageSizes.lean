import OmniORB.Cdr.MemoryRuns
import OmniORB.Giop.Offsets

/-!
# Sizes of GIOP 1.2 messages

`sendSystemException` and `sendUserException` find the size of a reply by counting it first; the
counting stream does not count the padding behind the service contexts. `marshalRequestHeader` leaves
the size of a request's header in the buffer, so that `outputMessageEnd` can take the padding behind
it away.
-/

namespace OmniORB

open Library

/-- An `IOP::ServiceContext` that is written. The length of its data is an `int`. -/
structure OutServiceContext where
  contextId : ℕ
  contextData : List UInt8
  length_lt : contextData.length < 2 ^ 31

namespace WriteOp

def ulong (n : ℕ) : WriteOp := .primitive .align4 (ulongOctets n) (length_ulongOctets n)

/-- The type of the size of an alignment. -/
def primitiveOf : Alignment → Primitive
  | .align1 => .octet
  | .align2 => .short
  | .align4 => .long
  | .align8 => .longLong

lemma size_primitiveOf (align : Alignment) : (primitiveOf align).size = align.size := by
  cases align <;> rfl

lemma align_primitiveOf (align : Alignment) : (primitiveOf align).align = align := by
  cases align <;> rfl

/-- The operation on any stream. -/
def toOutput : WriteOp → OutputOp
  | .primitive a b hlen => .marshal (primitiveOf a) b (hlen.trans (size_primitiveOf a).symm)
  | .align a => .alignOutput a
  | .octetArray b a _ => .putOctetArray b a
  | .smallOctetArray b _ => .putSmallOctetArray b

def isAlign : WriteOp → Bool
  | .align _ => true
  | _ => false

/-- An operation ends where it is counted to. -/
lemma place_toOutput (n : ℕ) (op : WriteOp) : op.toOutput.place n = op.count n := by
  cases op with
  | primitive a b hlen =>
    change alignTo n (primitiveOf a).align.size + (primitiveOf a).size = alignTo n a.size + b.length
    rw [align_primitiveOf, size_primitiveOf, hlen]
  | align a => rfl
  | octetArray b a hlen => rfl
  | smallOctetArray b hlen => exact congrArg (· + b.length) (alignTo_one n).symm

lemma counted_toOutput (n : ℕ) {op : WriteOp} (hop : op.isAlign = false) :
    op.toOutput.counted n = op.count n := by
  rw [← place_toOutput]
  cases op with
  | align a => cases hop
  | _ => rfl

lemma foldl_counted_toOutput (n : ℕ) {ops : List WriteOp} (hops : ∀ op ∈ ops, op.isAlign = false) :
    (ops.map toOutput).foldl OutputOp.counted n = ops.foldl count n := by
  induction ops generalizing n with
  | nil => rfl
  | cons op ops ih =>
    rw [List.map_cons, List.foldl_cons, List.foldl_cons,
      counted_toOutput n (hops op (List.mem_cons_self ..))]
    exact ih _ fun op' hop' => hops op' (List.mem_cons_of_mem op hop')

end WriteOp

/-! ### Replies -/

def OutServiceContext.ops (c : OutServiceContext) : List WriteOp :=
  .ulong c.contextId :: .ulong c.contextData.length ::
    if c.contextData = [] then [] else [.octetArray c.contextData .align1 c.length_lt]

/-- The header of a reply, up to its padding. -/
def replyHeader (requestId status : ℕ) (contexts : List OutServiceContext) : List WriteOp :=
  .ulong requestId :: .ulong status :: .ulong contexts.length ::
    contexts.flatMap OutServiceContext.ops

/-- An exception: its repository id and its members. -/
def exceptionOps (repoid : List UInt8) (hlen : repoid.length < 2 ^ 31) (members : List WriteOp) :
    List WriteOp :=
  .ulong repoid.length :: .smallOctetArray repoid hlen :: members

namespace GiopOut

variable (env : OutEnv)

/-- `cs.total() - 12` -/
def countedSize (ops : List WriteOp) : ℕ :=
  match CdrCountingStream.count (ops.map WriteOp.toOutput) (.new 12) with
  | .ok _ cs => cs.total - 12
  | .error _ _ => 0

/-- The part that `sendUserException` and `sendSystemException` share: count, then write. The request
id and the status are counted as zeros, which are as long. -/
def sendCounted (requestId : ℕ) (ops : List WriteOp) : Except Exn (List UInt8) :=
  let size := countedSize ops
  match (outputNewMessage env .reply requestId).outputSetFragmentSize env size with
  | .error e => .error e
  | .ok s =>
    match (s.setSizeField size).writes env ops with
    | .error e => .error e
    | .ok s => s.outputMessageEnd

def sendUserException (requestId : ℕ) (contexts : List OutServiceContext) (repoid : List UInt8)
    (hlen : repoid.length < 2 ^ 31) (members : List WriteOp) : Except Exn (List UInt8) :=
  sendCounted env requestId
    (replyHeader requestId 1 contexts ++ .align .align8 :: exceptionOps repoid hlen members)

/-- Without service contexts the whole message is expected to fit in a buffer, and the size of the
header is left in it. -/
def sendSystemException (requestId : ℕ) (contexts : List OutServiceContext) (repoid : List UInt8)
    (hlen : repoid.length < 2 ^ 31) (minor completed : ℕ) : Except Exn (List UInt8) :=
  let exception := .align .align8 :: exceptionOps repoid hlen [.ulong minor, .ulong completed]
  if contexts = [] then
    match (outputNewMessage env .reply requestId).writes env (replyHeader requestId 2 []) with
    | .error e => .error e
    | .ok s =>
      match (s.setSizeField (ulongSub s.outMkr 12)).writes env exception with
      | .error e => .error e
      | .ok s => s.outputMessageEnd
  else sendCounted env requestId (replyHeader requestId 2 contexts ++ exception)

variable {env : OutEnv} {requestId : ℕ} {m : List UInt8}

lemma countedSize_eq (ops : List WriteOp) :
    countedSize ops = (ops.map WriteOp.toOutput).foldl OutputOp.counted 12 - 12 := by
  rw [countedSize, CdrCountingStream.count_eq]
  rfl

/-- What is sent is a header with the size that was counted, and what was written. -/
lemma sendCounted_eq_ok {ops : List WriteOp} (hpos : countedSize ops ≠ 0)
    (h : sendCounted env requestId ops = .ok m) :
    sizeField m = countedSize ops % 2 ^ 32 ∧ m.length = ops.foldl WriteOp.count 12 := by
  unfold sendCounted at h
  dsimp only at h
  generalize hsize : countedSize ops = size at h hpos ⊢
  cases hset : (outputNewMessage env .reply requestId).outputSetFragmentSize env size with
  | error e => simp [hset] at h
  | ok u =>
    rw [hset] at h
    dsimp only at h
    rw [outputSetFragmentSize] at hset
    split_ifs at hset
    cases hset
    have hnew : (outputNewMessage env .reply requestId).buffer =
        messageHeader .reply false 0xffffffff ++ [] := rfl
    have hbuf := buffer_setSizeField size hnew
    have hbufsz := env.cfg.lt_bufferSize
    have hstart : Counted env .reply size []
        (setSizeField size
          { outputNewMessage env .reply requestId with outputFragmentSize := size }) := by
      exact {
        sized := hpos
        octets := hbuf
        aligned := Nat.dvd_zero 8
        headers := rfl
        le := by
          change 12 ≤ env.cfg.bufferSize
          omega
        outEnd := rfl }
    cases hwrites : (setSizeField size
        { outputNewMessage env .reply requestId with outputFragmentSize := size }).writes
          env ops with
    | error e => simp [hwrites] at h
    | ok t =>
      rw [hwrites] at h
      dsimp only at h
      obtain ⟨body, hbody, ht⟩ := (counted_keeps env .reply size).writes hstart hwrites
      rw [ht.outputMessageEnd h, sizeField_messageHeader, List.length_append, length_messageHeader]
      exact ⟨rfl, hbody.count⟩

/-! ### The size -/

lemma isAlign_contextOps (c : OutServiceContext) : ∀ op ∈ c.ops, op.isAlign = false := by
  intro op hop
  unfold OutServiceContext.ops at hop
  split_ifs at hop
  · obtain rfl | rfl : op = .ulong _ ∨ op = .ulong _ := by simpa using hop
    · rfl
    · rfl
  · obtain rfl | rfl | rfl : op = .ulong _ ∨ op = .ulong _ ∨ op = .octetArray _ _ _ := by
      simpa using hop
    · rfl
    · rfl
    · rfl

lemma isAlign_replyHeader (requestId status : ℕ) (contexts : List OutServiceContext) :
    ∀ op ∈ replyHeader requestId status contexts, op.isAlign = false := by
  intro op hop
  simp only [replyHeader, List.mem_cons, List.mem_flatMap] at hop
  obtain rfl | rfl | rfl | ⟨c, -, hop⟩ := hop
  · rfl
  · rfl
  · rfl
  · exact isAlign_contextOps c op hop

/-- Where the service contexts end. -/
def headerEnd (requestId status : ℕ) (contexts : List OutServiceContext) : ℕ :=
  (replyHeader requestId status contexts).foldl WriteOp.count 12

lemma countedSize_reply (requestId status : ℕ) (contexts : List OutServiceContext)
    {contents : List WriteOp}
    (hcontents : ∀ op ∈ contents, op.isAlign = false) :
    countedSize (replyHeader requestId status contexts ++ .align .align8 :: contents) =
      contents.foldl WriteOp.count (headerEnd requestId status contexts) - 12 := by
  rw [countedSize_eq, List.map_append, List.map_cons, List.foldl_append, List.foldl_cons,
    WriteOp.foldl_counted_toOutput 12 (isAlign_replyHeader requestId status contexts)]
  change (contents.map WriteOp.toOutput).foldl OutputOp.counted (headerEnd _ _ _) - 12 = _
  rw [WriteOp.foldl_counted_toOutput _ hcontents]

lemma le_headerEnd (requestId status : ℕ) (contexts : List OutServiceContext) :
    24 ≤ headerEnd requestId status contexts := by
  have h (n : ℕ) : (WriteOp.ulong n).count 12 = 16 := by
    change alignTo 12 4 + 4 = 16
    decide
  have h' (n : ℕ) : (WriteOp.ulong n).count 16 = 20 := by
    change alignTo 16 4 + 4 = 20
    decide
  have h'' (n : ℕ) : (WriteOp.ulong n).count 20 = 24 := by
    change alignTo 20 4 + 4 = 24
    decide
  rw [headerEnd, replyHeader, List.foldl_cons, List.foldl_cons, List.foldl_cons, h, h', h'']
  exact le_foldl_count 24 _

/-- Padding to 8 is what a `CORBA::ULong` makes anyway, unless four octets more are needed. -/
lemma alignTo_eight (p : ℕ) :
    alignTo p 8 = if p % 8 = 0 ∨ 4 < p % 8 then alignTo p 4 else alignTo p 4 + 4 := by
  simp only [alignTo]
  split_ifs <;> omega

lemma foldl_exceptionOps {p : ℕ} {repoid : List UInt8} {hlen : repoid.length < 2 ^ 31}
    {members : List WriteOp} :
    (exceptionOps repoid hlen members).foldl WriteOp.count p =
      members.foldl WriteOp.count (alignTo p 4 + 4 + repoid.length) := by
  change members.foldl WriteOp.count (alignTo (alignTo p 4 + 4) 1 + repoid.length) = _
  rw [alignTo_one]

lemma isAlign_exceptionOps (repoid : List UInt8) (hlen : repoid.length < 2 ^ 31)
    {members : List WriteOp} (hmembers : ∀ op ∈ members, op.isAlign = false) :
    ∀ op ∈ exceptionOps repoid hlen members, op.isAlign = false := by
  intro op hop
  obtain rfl | rfl | hop : op = _ ∨ op = _ ∨ op ∈ members := by simpa [exceptionOps] using hop
  · rfl
  · rfl
  · exact hmembers op hop

/-- A reply with its header, its exception and the padding between them. -/
lemma sizeField_reply {status : ℕ} {contexts : List OutServiceContext} {repoid : List UInt8}
    {hlen : repoid.length < 2 ^ 31} {members : List WriteOp}
    (hmembers : ∀ op ∈ members, op.isAlign = false)
    (h : sendCounted env requestId (replyHeader requestId status contexts ++
      .align .align8 :: exceptionOps repoid hlen members) = .ok m) :
    sizeField m = (members.foldl WriteOp.count
        (alignTo (headerEnd requestId status contexts) 4 + 4 + repoid.length) - 12) % 2 ^ 32 ∧
      m.length = members.foldl WriteOp.count
        (alignTo (alignTo (headerEnd requestId status contexts) 8) 4 + 4 + repoid.length) := by
  have hsize := countedSize_reply requestId status contexts
    (isAlign_exceptionOps repoid hlen hmembers)
  have hstart := le_headerEnd requestId status contexts
  have hle := le_alignTo (headerEnd requestId status contexts) (a := 4) (by decide)
  have hcount := le_foldl_count
    (alignTo (headerEnd requestId status contexts) 4 + 4 + repoid.length) members
  rw [foldl_exceptionOps] at hsize
  obtain ⟨hfield, hlength⟩ := sendCounted_eq_ok (by omega) h
  rw [hsize] at hfield
  rw [List.foldl_append, List.foldl_cons] at hlength
  refine ⟨hfield, hlength.trans ?_⟩
  exact foldl_exceptionOps

/-- The size field of a reply with a user exception is right if the service contexts end where a
`CORBA::ULong` behind them is aligned to 8. -/
theorem userException_size_exact {contexts : List OutServiceContext} {repoid : List UInt8}
    {hlen : repoid.length < 2 ^ 31} {members : List WriteOp}
    (hmembers : ∀ op ∈ members, op.isAlign = false)
    (hend : headerEnd requestId 1 contexts % 8 = 0 ∨ 4 < headerEnd requestId 1 contexts % 8)
    (h : sendUserException env requestId contexts repoid hlen members = .ok m) :
    sizeField m = (m.length - 12) % 2 ^ 32 := by
  obtain ⟨hfield, hlength⟩ := sizeField_reply hmembers h
  rw [alignTo_eight, if_pos hend, alignTo_idem _ (by decide)] at hlength
  rw [hfield, hlength]

/-- The size field of a reply with a system exception and service contexts is right exactly if these
end where a `CORBA::ULong` behind them is aligned to 8; otherwise it is four octets short. -/
theorem systemException_size_iff {contexts : List OutServiceContext} (hne : contexts ≠ [])
    {repoid : List UInt8} {hlen : repoid.length < 2 ^ 31} {minor completed : ℕ}
    (h : sendSystemException env requestId contexts repoid hlen minor completed = .ok m) :
    (sizeField m = (m.length - 12) % 2 ^ 32 ↔
      headerEnd requestId 2 contexts % 8 = 0 ∨ 4 < headerEnd requestId 2 contexts % 8) ∧
    (¬(headerEnd requestId 2 contexts % 8 = 0 ∨ 4 < headerEnd requestId 2 contexts % 8) →
      (sizeField m + 4) % 2 ^ 32 = (m.length - 12) % 2 ^ 32) := by
  have hcount (q : ℕ) : [WriteOp.ulong minor, .ulong completed].foldl WriteOp.count q =
      alignTo q 4 + 8 := by
    change alignTo (alignTo q 4 + 4) 4 + 4 = _
    rw [alignTo_add_of_dvd _ (by decide) (by decide), alignTo_idem _ (by decide)]
  rw [sendSystemException] at h
  rw [if_neg hne] at h
  obtain ⟨hfield, hlength⟩ := sizeField_reply (by simp [WriteOp.ulong, WriteOp.isAlign]) h
  have hstart := le_headerEnd requestId 2 contexts
  rw [hcount] at hfield hlength
  rw [alignTo_eight] at hlength
  simp only [alignTo] at hfield hlength
  constructor
  · constructor
    · intro hexact
      by_contra hend
      rw [if_neg hend] at hlength
      omega
    · intro hend
      rw [if_pos hend] at hlength
      omega
  · intro hend
    rw [if_neg hend] at hlength
    omega

/-- A service context with data of a given length. -/
def sampleContext (n : Fin 100) : OutServiceContext where
  contextId := 1
  contextData := List.replicate n 0
  length_lt := by
    rw [List.length_replicate]
    omega

/-- A repository id. -/
def sampleRepoid : List UInt8 := [0x49, 0x44, 0x4c, 0x3a, 0x78, 0]

/-- A user exception with a member of eight octets, behind a service context of five. -/
def sampleUserReply : List UInt8 :=
  [0x47, 0x49, 0x4f, 0x50, 1, 2, 1, 1, 52, 0, 0, 0, 7, 0, 0, 0, 1, 0, 0, 0, 1, 0, 0, 0,
    1, 0, 0, 0, 5, 0, 0, 0, 0, 0, 0, 0, 0, 0, 0, 0, 6, 0, 0, 0, 0x49, 0x44, 0x4c, 0x3a, 0x78, 0,
    0, 0, 0, 0, 0, 0, 1, 2, 3, 4, 5, 6, 7, 8]

lemma sendUserException_sample :
    sendUserException initialOut 7 [sampleContext 5] sampleRepoid (by decide)
      [.primitive .align8 [1, 2, 3, 4, 5, 6, 7, 8] rfl] = .ok sampleUserReply := by
  decide

theorem userException_size_exact_sample :
    sizeField sampleUserReply = (sampleUserReply.length - 12) % 2 ^ 32 :=
  userException_size_exact (by simp [WriteOp.isAlign]) (by decide) sendUserException_sample

/-- A system exception behind a service context of four octets. -/
def sampleSystemReply : List UInt8 :=
  [0x47, 0x49, 0x4f, 0x50, 1, 2, 1, 1, 44, 0, 0, 0, 7, 0, 0, 0, 2, 0, 0, 0, 1, 0, 0, 0,
    1, 0, 0, 0, 4, 0, 0, 0, 0, 0, 0, 0, 0, 0, 0, 0, 6, 0, 0, 0, 0x49, 0x44, 0x4c, 0x3a, 0x78, 0,
    0, 0, 3, 0, 0, 0, 0, 0, 0, 0]

lemma sendSystemException_sample :
    sendSystemException initialOut 7 [sampleContext 4] sampleRepoid (by decide) 3 0 =
      .ok sampleSystemReply := by
  decide

theorem systemException_size_iff_short :
    (sizeField sampleSystemReply = (sampleSystemReply.length - 12) % 2 ^ 32 ↔
      headerEnd 7 2 [sampleContext 4] % 8 = 0 ∨ 4 < headerEnd 7 2 [sampleContext 4] % 8) ∧
    (¬(headerEnd 7 2 [sampleContext 4] % 8 = 0 ∨ 4 < headerEnd 7 2 [sampleContext 4] % 8) →
      (sizeField sampleSystemReply + 4) % 2 ^ 32 = (sampleSystemReply.length - 12) % 2 ^ 32) :=
  systemException_size_iff (List.cons_ne_nil _ _) sendSystemException_sample

/-! ### Headers with padding behind them -/

/-- What is different in the headers of requests and replies: a request goes to an object key and
names an operation; a reply has the status `NO_EXCEPTION`. -/
inductive Header where
  | request (flags : UInt8) (key op : List UInt8) (hkey : key.length < 2 ^ 31)
      (hop : op.length < 2 ^ 31)
  | reply

namespace Header

def mtype : Header → MsgType
  | .request .. => .request
  | .reply => .reply

/-- The header of a request or a reply, up to its padding. -/
def ops (requestId : ℕ) (contexts : List OutServiceContext) : Header → List WriteOp
  | .request flags key op hkey hop =>
    [.ulong requestId, .primitive .align1 [flags] rfl, .primitive .align1 [0] rfl,
      .primitive .align1 [0] rfl, .primitive .align1 [0] rfl, .primitive .align2 [0, 0] rfl,
      .ulong key.length, .smallOctetArray key hkey, .ulong op.length, .smallOctetArray op hop,
      .ulong contexts.length] ++ contexts.flatMap OutServiceContext.ops
  | .reply => replyHeader requestId 0 contexts

end Header

/-- `(n + 3) & ~3` as a `CORBA::ULong` -/
def roundUp (n : ℕ) : ℕ := (n + 3) % 2 ^ 32 / 4 * 4

/-- `cs.total()`, if `cs` starts at `start` -/
def countedFrom (start : ℕ) (ops : List WriteOp) : ℕ :=
  match CdrCountingStream.count (ops.map WriteOp.toOutput) (.new start) with
  | .ok _ cs => cs.total
  | .error _ _ => 0

/-- The size of a header: computed without service contexts, counted with them. -/
def Header.size (contexts : List OutServiceContext) : Header → ℕ
  | .request _ key op hkey hop =>
    if contexts = [] then
      let total := roundUp (12 + 4 + 1 + 3 + 2 + 2 + 4 + key.length)
      roundUp (total + 4 + op.length) + 4
    else
      countedFrom (12 + 4 + 1 + 3) ([.primitive .align2 [0, 0] rfl, .ulong key.length,
        .octetArray key .align1 hkey, .ulong op.length, .octetArray op .align1 hop,
        .ulong contexts.length] ++ contexts.flatMap OutServiceContext.ops)
  | .reply => if contexts = [] then 12 + 4 + 4 + 4 else countedFrom 12 (replyHeader 0 0 contexts)

/-- A request or a reply: its header, whose size is left in the buffer, padding and its arguments. -/
def sendHeaded (env : OutEnv) (requestId : ℕ) (contexts : List OutServiceContext) (header : Header)
    (args : List WriteOp) : Except Exn (List UInt8) :=
  let s := (outputNewMessage env header.mtype requestId).setSizeField (header.size contexts)
  match s.writes env (header.ops requestId contexts ++ .align .align8 :: args) with
  | .error e => .error e
  | .ok s => s.outputMessageEnd

/-- Where a header ends. -/
def Header.end (requestId : ℕ) (contexts : List OutServiceContext) (header : Header) : ℕ :=
  (header.ops requestId contexts).foldl WriteOp.count 12

section

variable {mtype : MsgType} {hdrsz : ℕ} {cur : List UInt8} {s : GiopOut}

/-- Of a message that is in the buffer altogether, padding behind the header is left out. -/
lemma Fragmented.outputMessageEnd_whole (h : Fragmented env mtype hdrsz [] cur s)
    (hhdr : 12 ≤ hdrsz)
    (hlt : hdrsz < 2 ^ 32) (hrun : s.outputMessageEnd = .ok m) :
    m = fragment mtype s.requestId true false
      (if alignTo hdrsz 8 = 12 + cur.length then cur.take (hdrsz - 12) else cur) := by
  have hmkr : s.outMkr = 12 + cur.length := h.outMkr
  have hle := h.le
  have hend := h.outEnd_le
  have hbufsz := env.cfg.bufferSize_lt
  obtain ⟨n, hn, hbuf⟩ := h.buffer
  cases hn rfl
  have hbuf' : s.buffer = messageHeader mtype false hdrsz ++ cur := hbuf
  have hne : s.buffer ≠ [] := by
    rw [hbuf]
    exact List.cons_ne_nil _ _
  have hsz : ulongSub s.outMkr 12 = cur.length := by
    rw [ulongSub_of_le (by omega) (by omega)]
    omega
  have hfield : sizeField s.buffer = hdrsz := by
    rw [hbuf, sizeField_messageHeader, Nat.mod_eq_of_lt hlt]
  rw [GiopOut.outputMessageEnd, if_neg hne] at hrun
  rw [closeBuffer, if_pos h.unsized] at hrun
  dsimp only at hrun
  rw [if_pos (h.none_sent rfl), hfield, hsz] at hrun
  by_cases hlast : hdrsz = 0xffffffff
  · rw [if_pos hlast] at hrun
    cases hrun
  rw [if_neg hlast] at hrun
  by_cases hpad : alignTo hdrsz 8 = cur.length + 12
  · rw [if_pos hpad] at hrun
    rw [if_pos (hpad.trans (Nat.add_comm _ _))]
    have hge := le_alignTo hdrsz (show 0 < 8 by decide)
    have hcut : ({ s with buffer := s.buffer.take hdrsz } : GiopOut).buffer =
        messageHeader mtype false hdrsz ++ cur.take (hdrsz - 12) := by
      change s.buffer.take hdrsz = _
      rw [hbuf', List.take_append, List.take_of_length_le hhdr]
      rfl
    have hlen : (cur.take (hdrsz - 12)).length = hdrsz - 12 := by
      rw [List.length_take, Nat.min_eq_left (by omega)]
    have hset := buffer_setSizeField (ulongSub hdrsz 12) hcut
    cases hrun
    generalize cur.take (hdrsz - 12) = last at hlen hset ⊢
    change s.sent ++ GiopOut.buffer _ = _
    rw [hset, h.sent, ulongSub_of_le hhdr hlt, ← hlen]
    rfl
  · rw [if_neg hpad] at hrun
    rw [if_neg fun hpad' => hpad (hpad'.trans (Nat.add_comm _ _))]
    cases hrun
    change s.sent ++ GiopOut.buffer _ = _
    rw [buffer_setSizeField _ hbuf', h.sent]
    rfl

/-- The octet with the flags of a message that is sent in fragments. -/
lemma Fragmented.more_of_done {done : List (List UInt8)}
    (h : Fragmented env mtype hdrsz done cur s) (hdone : done ≠ [])
    (hrun : s.outputMessageEnd = .ok m) : m.getD 6 0 = 3 := by
  obtain ⟨p, ps, rfl⟩ := List.exists_cons_of_ne_nil hdone
  have hflag (rest : List UInt8) : (s.sent ++ rest).getD 6 0 = 3 := by
    rw [h.sent]
    rfl
  rw [GiopOut.outputMessageEnd] at hrun
  split_ifs at hrun
  · cases hrun
    rw [← hflag [], List.append_nil]
  · cases hclose : s.closeBuffer with
    | error e => simp [hclose] at hrun
    | ok c =>
      have hsent : c.sent = s.sent := by
        rw [closeBuffer] at hclose
        dsimp only at hclose
        split_ifs at hclose <;> cases hclose <;> rfl
      rw [hclose] at hrun
      cases hrun
      rw [hsent]
      exact hflag _

end

/-! ### The sizes of the headers -/

lemma countedFrom_eq (start : ℕ) {ops : List WriteOp} (hops : ∀ op ∈ ops, op.isAlign = false) :
    countedFrom start ops = ops.foldl WriteOp.count start := by
  rw [countedFrom, CdrCountingStream.count_eq]
  exact WriteOp.foldl_counted_toOutput start hops

lemma count_ulong (p n : ℕ) : (WriteOp.ulong n).count p = alignTo p 4 + 4 := rfl

lemma count_smallOctetArray (p : ℕ) (b : List UInt8) (hlen : b.length < 2 ^ 31) :
    (WriteOp.smallOctetArray b hlen).count p = p + b.length :=
  congrArg (· + b.length) (alignTo_one p)

lemma count_octetArray_one (p : ℕ) (b : List UInt8) (hlen : b.length < 2 ^ 31) :
    (WriteOp.octetArray b .align1 hlen).count p = p + b.length :=
  congrArg (· + b.length) (alignTo_one p)

/-- Where the header of a request ends. -/
lemma end_request {flags : UInt8} {key op : List UInt8} {hkey : key.length < 2 ^ 31}
    {hop : op.length < 2 ^ 31} {contexts : List OutServiceContext} :
    (Header.request flags key op hkey hop).end requestId contexts =
      (contexts.flatMap OutServiceContext.ops).foldl WriteOp.count
        (alignTo (alignTo (28 + key.length) 4 + 4 + op.length) 4 + 4) := by
  have hfixed :
      alignTo (alignTo (alignTo (alignTo (alignTo (alignTo (alignTo 12 4 + 4) 1 + 1) 1 + 1)
        1 + 1) 1 + 1) 2 + 2) 4 + 4 = 28 := by decide
  rw [Header.end, Header.ops, List.foldl_append]
  simp only [List.foldl_cons, List.foldl_nil, count_ulong, count_smallOctetArray]
  rw [← hfixed]
  rfl

lemma roundUp_eq {n : ℕ} (hn : n + 3 < 2 ^ 32) : roundUp n = alignTo n 4 := by
  rw [roundUp, alignTo]
  omega

/-- The size that is left in the buffer is where the header ends, unless the sum overflows. -/
lemma size_eq_end (requestId : ℕ) {header : Header} {contexts : List OutServiceContext}
    (hlt : header.end requestId contexts < 2 ^ 32) :
    header.size contexts = header.end requestId contexts := by
  cases header with
  | reply =>
    by_cases hnone : contexts = []
    · subst hnone
      have h12 : alignTo (alignTo (alignTo 12 4 + 4) 4 + 4) 4 + 4 = 24 := by decide
      exact h12.symm
    · rw [Header.size]
      rw [if_neg hnone, countedFrom_eq 12 (isAlign_replyHeader 0 0 contexts)]
      rfl
  | request flags key op hkey hop =>
    rw [end_request] at hlt ⊢
    by_cases hnone : contexts = []
    · subst hnone
      change alignTo (alignTo (28 + key.length) 4 + 4 + op.length) 4 + 4 < _ at hlt
      change roundUp (roundUp (28 + key.length) + 4 + op.length) + 4 =
        alignTo (alignTo (28 + key.length) 4 + 4 + op.length) 4 + 4
      have h4 : 0 < 4 := by decide
      have hinner := le_alignTo (28 + key.length) h4
      have houter := le_alignTo (alignTo (28 + key.length) 4 + 4 + op.length) h4
      rw [roundUp_eq (n := 28 + key.length) (by omega), roundUp_eq (by omega)]
    · rw [Header.size]
      rw [if_neg hnone, countedFrom_eq _ ?_, List.foldl_append]
      · simp only [List.foldl_cons, List.foldl_nil, count_ulong, count_octetArray_one]
        have hfixed : alignTo (alignTo 20 2 + 2) 4 + 4 = 28 := by decide
        rw [← hfixed]
        rfl
      · intro op' hop'
        obtain hop' | hop' := List.mem_append.mp hop'
        · simp only [List.mem_cons, List.not_mem_nil, or_false] at hop'
          obtain rfl | rfl | rfl | rfl | rfl | rfl := hop' <;> rfl
        · obtain ⟨c, -, hop'⟩ := List.mem_flatMap.mp hop'
          exact isAlign_contextOps c op' hop'

lemma inFragments_start (env : OutEnv) (mtype : MsgType) (requestId hdrsz : ℕ) :
    InFragments env mtype hdrsz [] []
      ((outputNewMessage env mtype requestId).setSizeField hdrsz) := by
  have hbufsz := env.cfg.lt_bufferSize
  have hnew : (outputNewMessage env mtype requestId).buffer =
      messageHeader mtype false 0xffffffff ++ [] := rfl
  have hbuf := buffer_setSizeField hdrsz hnew
  refine ⟨[], [], List.prefix_refl [], rfl, ?_⟩
  exact {
    unsized := rfl
    sent := rfl
    buffer := ⟨hdrsz, fun _ => rfl, hbuf⟩
    whole := trivial
    headers := rfl
    le := by
      rw [GiopOut.outMkr, hbuf]
      change 12 ≤ env.cfg.bufferSize
      omega
    dvd := env.cfg.dvd_bufferSize
    pos := hbufsz.le
    outEnd_le := Nat.le_refl _
    none_sent := fun _ => rfl
    some_sent := fun h => absurd rfl h }

/-- A request or a reply that is sent in one piece ends with its header if nothing was marshalled
behind it, and with the arguments otherwise. In both cases its size field is right. -/
theorem sendHeaded_in_one_piece {header : Header} {contexts : List OutServiceContext}
    {args : List WriteOp} (hm : sendHeaded env requestId contexts header args = .ok m)
    (hone : m.getD 6 0 ≠ 3) :
    let start := alignTo (header.end requestId contexts) 8
    let stop := args.foldl WriteOp.count start
    m.length = (if stop = start then header.end requestId contexts else stop) ∧
      sizeField m = m.length - 12 := by
  intro start stop
  unfold sendHeaded at hm
  dsimp only at hm
  generalize hsz : header.size contexts = hdrsz at hm
  cases hwrites : ((outputNewMessage env header.mtype requestId).setSizeField hdrsz).writes env
      (header.ops requestId contexts ++ .align .align8 :: args) with
  | error e => simp [hwrites] at hm
  | ok u =>
    rw [hwrites] at hm
    dsimp only at hm
    obtain ⟨body, hbody, done, cur, -, rfl, hu⟩ :=
      (inFragments_keeps env header.mtype hdrsz []).writes
      (inFragments_start env header.mtype requestId hdrsz) hwrites
    have hdone : done = [] := by
      by_contra hdone
      exact hone (hu.more_of_done hdone hm)
    subst hdone
    -- all of it is in one buffer, so that no sum overflows
    have hmkr : u.outMkr = 12 + cur.length := hu.outMkr
    have hle := hu.le
    have hend := hu.outEnd_le
    have hbufsz := env.cfg.bufferSize_lt
    have hcount : 12 + cur.length = stop := by
      rw [show cur = [].flatten ++ cur from rfl, hbody.count, List.foldl_append, List.foldl_cons]
      rfl
    have hstart : header.end requestId contexts ≤ start := le_alignTo _ (by decide)
    have hstop : start ≤ stop := le_foldl_count start args
    have hhdr : 12 ≤ header.end requestId contexts := le_foldl_count 12 _
    rw [size_eq_end requestId (by omega)] at hsz
    subst hsz
    have hm' := hu.outputMessageEnd_whole hhdr (by omega) hm
    have hcond : (alignTo (header.end requestId contexts) 8 = 12 + cur.length) ↔ stop = start := by
      rw [hcount]
      exact eq_comm
    have hlast : m.length = if stop = start then header.end requestId contexts else stop := by
      rw [hm', length_fragment]
      change 12 + _ = _
      by_cases hnone : stop = start
      · rw [if_pos (hcond.mpr hnone), if_pos hnone, List.length_take]
        omega
      · rw [if_neg (mt hcond.mp hnone), if_neg hnone, hcount]
    refine ⟨hlast, ?_⟩
    have hlength := congrArg List.length hm'
    rw [length_fragment] at hlength
    change m.length = 12 + _ at hlength
    have hfield : sizeField m = _ :=
      (congrArg sizeField hm').trans (sizeField_messageHeader _ _ _ _)
    rw [hfield]
    change (_ + 0) % 2 ^ 32 = _
    split_ifs at hlast <;> omega

lemma length_sampleKey : ([1, 2, 3] : List UInt8).length < 2 ^ 31 := by decide

/-- A request to a key of three octets. -/
def sampleHeader : Header := .request 3 [1, 2, 3] [0x78, 0] length_sampleKey (by decide)

/-- It has no arguments. -/
def sampleRequest : List UInt8 :=
  [0x47, 0x49, 0x4f, 0x50, 1, 2, 1, 0, 32, 0, 0, 0, 7, 0, 0, 0, 3, 0, 0, 0, 0, 0, 0, 0, 3, 0, 0, 0,
    1, 2, 3, 0, 2, 0, 0, 0, 0x78, 0, 0, 0, 0, 0, 0, 0]

lemma sendHeaded_sample : sendHeaded initialOut 7 [] sampleHeader [] = .ok sampleRequest := by
  decide

theorem sendHeaded_in_one_piece_sample :
    let start := alignTo (sampleHeader.end 7 []) 8
    let stop := ([] : List WriteOp).foldl WriteOp.count start
    sampleRequest.length = (if stop = start then sampleHeader.end 7 [] else stop) ∧
      sizeField sampleRequest = sampleRequest.length - 12 :=
  sendHeaded_in_one_piece sendHeaded_sample (by decide)

end GiopOut

end OmniORB
