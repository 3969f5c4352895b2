import OmniORB.Giop.Receive
import OmniORB.Library.Triple

/-!
# The calls of a strand

What reading GIOP 1.2 messages uses of `giopStream`, `GIOP_C` and `GIOP_S`, and the state that the
calls of one strand share. Positions in a buffer are offsets from its start, which is aligned to 8;
a `size_t` has 64 bits.
-/

namespace OmniORB

open Library

/-- `GIOP::MsgType` -/
inductive MsgType where
  | request
  | reply
  | cancelRequest
  | locateRequest
  | locateReply
  | closeConnection
  | messageError
  | fragment
  deriving DecidableEq, Repr

def MsgType.ofOctet : UInt8 → Option MsgType
  | 0 => some .request
  | 1 => some .reply
  | 2 => some .cancelRequest
  | 3 => some .locateRequest
  | 4 => some .locateReply
  | 5 => some .closeConnection
  | 6 => some .messageError
  | 7 => some .fragment
  | _ => none

/-- `IOP_C::State` and `IOP_S::State` -/
inductive CallState where
  | unUsed
  | idle
  | waitingForReply
  | replyIsBeingProcessed
  | waitForRequestHeader
  | requestHeaderIsBeingProcessed
  | requestIsBeingProcessed
  | replyCompleted
  | inputFullyBuffered
  | inputPartiallyBuffered
  deriving DecidableEq, Repr

/-- What reading uses of a `GIOP_C` or `GIOP_S`. `inputMessageSize` is the sum that the source
computes before it is cut to a `size_t`. -/
structure Call where
  state : CallState
  requestId : ℕ
  requestType : MsgType
  input : List Buffer
  currentInputBuffer : Option Buffer
  inbMkr : ℕ
  inbEnd : ℕ
  unmarshalByteSwap : Bool
  inputFullyBuffered : Bool
  inputMatchedId : Bool
  inputExpectAnotherFragment : Bool
  inputMessageSize : ℤ
  inputFragmentToCome : ℕ

/-- The constructors of `giopStream`, `GIOP_C` and `GIOP_S`. -/
def Call.new : Call where
  state := .unUsed
  requestId := 0
  requestType := .messageError
  input := []
  currentInputBuffer := none
  inbMkr := 0
  inbEnd := 0
  unmarshalByteSwap := false
  inputFullyBuffered := false
  inputMatchedId := false
  inputExpectAnotherFragment := false
  inputMessageSize := 0
  inputFragmentToCome := 0

/-- The buffer that the markers point into. -/
def Call.buffer (c : Call) : Buffer := c.currentInputBuffer.getD ⟨0, [], 0⟩

/-- `giopStream::reset` -/
def Call.reset (c : Call) : Call :=
  { c with
    input := []
    currentInputBuffer := none
    inputFullyBuffered := false
    inputMatchedId := false }

/-- A `GIOP_C` or `GIOP_S` by a number of its own. -/
inductive Ref where
  | client (i : ℕ)
  | server (i : ℕ)
  deriving DecidableEq, Repr

/-- A strand with its calls: the lists of clients and servers, how many have been created so far,
and which one holds the read lock. -/
structure Sys where
  strand : Strand
  clients : List Ref
  servers : List Ref
  created : ℕ
  seqNumber : ℕ
  call : Ref → Call
  rdLocked : Option Ref

/-- The parameters of the code, what the memory of a buffer holds behind the octets that were
received, and how often a loop may go round. -/
structure Env where
  cfg : Config
  stale : Buffer → ℕ → UInt8
  fuel : ℕ

/-- A program that reads from a strand. -/
abbrev M := EStateM Exn Sys

namespace Sys

def setCall (s : Sys) (g : Ref) (c : Call) : Sys := { s with call := Function.update s.call g c }

@[simp] lemma strand_setCall (s : Sys) (g : Ref) (c : Call) : (s.setCall g c).strand = s.strand :=
  rfl

@[simp] lemma clients_setCall (s : Sys) (g : Ref) (c : Call) :
    (s.setCall g c).clients = s.clients := rfl

@[simp] lemma servers_setCall (s : Sys) (g : Ref) (c : Call) :
    (s.setCall g c).servers = s.servers := rfl

@[simp] lemma rdLocked_setCall (s : Sys) (g : Ref) (c : Call) :
    (s.setCall g c).rdLocked = s.rdLocked := rfl

@[simp] lemma call_setCall_self (s : Sys) (g : Ref) (c : Call) : (s.setCall g c).call g = c := by
  simp [setCall]

lemma call_setCall_of_ne {s : Sys} {g h : Ref} {c : Call} (hne : h ≠ g) :
    (s.setCall g c).call h = s.call h := by
  simp [setCall, hne]

/-- The strand goes into the state `DYING`. -/
def dying (s : Sys) : Sys := { s with strand := { s.strand with dying := true } }

/-- Insert a new `GIOP_C` at the end of the list. -/
def addClient (s : Sys) (c : Call) : Sys :=
  { s with
    clients := s.clients ++ [.client s.created]
    created := s.created + 1
    call := Function.update s.call (.client s.created) c }

/-- Insert a new `GIOP_S` at the end of the list. -/
def addServer (s : Sys) (c : Call) : Sys :=
  { s with
    servers := s.servers ++ [.server s.created]
    created := s.created + 1
    call := Function.update s.call (.server s.created) c }

/-- The first call of a list that is in use with a request id. -/
def findInUse (s : Sys) (l : List Ref) (reqid : ℕ) : Option Ref :=
  l.find? fun r => (s.call r).state ≠ .unUsed && (s.call r).requestId = reqid

end Sys

/-! ### Octets of a buffer -/

namespace Env

/-- Octet `i` of the memory of a buffer. -/
def octet (env : Env) (b : Buffer) (i : ℕ) : UInt8 :=
  if h : i < b.data.length then b.data[i] else env.stale b i

/-- The octets of a buffer's memory from `i` on. -/
def octets (env : Env) (b : Buffer) (i n : ℕ) : List UInt8 :=
  (List.range n).map fun j => env.octet b (i + j)

/-- A `CORBA::ULong` at offset `i`, in the byte order that the flags octet of the buffer gives. -/
def ulongAt (env : Env) (b : Buffer) (i : ℕ) : ℕ :=
  if env.octet b 6 &&& 0x1 = 1 then
    ulongValue (env.octet b i) (env.octet b (i + 1)) (env.octet b (i + 2)) (env.octet b (i + 3))
  else
    ulongValue (env.octet b (i + 3)) (env.octet b (i + 2)) (env.octet b (i + 1)) (env.octet b i)

/-- `hdr[6] & 0x2` -/
def moreFragments (env : Env) (b : Buffer) : Bool := env.octet b 6 &&& 0x2 ≠ 0

/-- Whether the sender's byte order differs from that of this host. -/
def byteSwap (env : Env) (b : Buffer) : Bool := env.octet b 6 &&& 0x1 ≠ 1

end Env

/-! ### Programs -/

/-- `a - b` as a `size_t` -/
def sizeSub (a b : ℕ) : ℕ := (a + 2 ^ 64 - b % 2 ^ 64) % 2 ^ 64

lemma sizeSub_of_le {a b : ℕ} (hba : b ≤ a) (ha : a < 2 ^ 64) : sizeSub a b = a - b := by
  unfold sizeSub
  rw [Nat.mod_eq_of_lt (hba.trans_lt ha)]
  omega

/-- A size kept without cutting as the `size_t` it is. -/
def sizeT (n : ℤ) : ℕ := (n % 2 ^ 64).toNat

namespace M

def getCall (g : Ref) : M Call := do
  let s ← get
  return s.call g

def modifyCall (g : Ref) (f : Call → Call) : M PUnit :=
  modify fun s => s.setCall g (f (s.call g))

def assert (c : Bool) : M PUnit :=
  if c then pure ⟨⟩ else throw .assertionFailure

/-- What is left of a strand after a failure to receive: nothing more comes from its connection. -/
def broken (s : Strand) : Strand :=
  { s with head := [], connection := ⟨[], by simp⟩, dying := true }

/-- A function of the strand. If it fails the strand is dying. -/
def onStrand {α : Type} (f : Strand → Except Exn (α × Strand)) : M α := fun s =>
  match f s.strand with
  | .ok (a, t) => .ok a { s with strand := t }
  | .error e => .error e { s with strand := broken s.strand }

/-- `inputTerminalProtocolError` and `inputRaiseCommFailure` -/
def inputTerminalProtocolError {α : Type} (message : String) : M α := do
  modify Sys.dying
  throw (.commFailure message)

def rdLock (g : Ref) : M PUnit := modify fun s => { s with rdLocked := some g }

def rdUnLock (g : Ref) : M PUnit :=
  modify fun s => if s.rdLocked = some g then { s with rdLocked := none } else s

/-- `giopStream::releaseInputBuffer`; only the holder of the read lock keeps a spare buffer. -/
def releaseInputBuffer (cfg : Config) (g : Ref) (b : Buffer) : M PUnit :=
  modify fun s =>
    if s.rdLocked = some g then { s with strand := s.strand.releaseInputBuffer cfg b } else s

/-- Give up the current input buffer, if there is one. -/
def releaseCurrent (cfg : Config) (g : Ref) : M PUnit := do
  let c ← getCall g
  match c.currentInputBuffer with
  | none => pure ⟨⟩
  | some b =>
    releaseInputBuffer cfg g b
    modifyCall g fun c => { c with currentInputBuffer := none }

/-- The first buffer in `pd_input` becomes the current one. -/
def takeInput (g : Ref) : M PUnit :=
  modifyCall g fun c => { c with currentInputBuffer := c.input.head?, input := c.input.tail }

/-! ### Steps of programs -/

section

variable {α β : Type} {s : Sys} {Q : β → Sys → Prop} {E : Exn → Sys → Prop}

lemma agree_onStrand {α : Type} {f : Strand → Except Exn (α × Strand)} {Q : α → Sys → Prop}
    (hok : ∀ a st, f s.strand = .ok (a, st) → Q a { s with strand := st })
    (herror : ∀ e, f s.strand = .error e → E e { s with strand := M.broken s.strand }) :
    Agree s (onStrand f) (onStrand f) Q E := by
  refine ⟨rfl, ?_⟩
  unfold onStrand
  cases hf : f s.strand with
  | ok p => exact hok p.1 p.2 hf
  | error e => exact herror e hf

lemma agree_get {k₁ k₂ : Sys → M β} (h : Agree s (k₁ s) (k₂ s) Q E) :
    Agree s (get >>= k₁) (get >>= k₂) Q E := ⟨h.same, h.meets⟩

lemma agree_getCall {k₁ k₂ : Call → M β} (u : Ref)
    (h : Agree s (k₁ (s.call u)) (k₂ (s.call u)) Q E) :
    Agree s (getCall u >>= k₁) (getCall u >>= k₂) Q E := ⟨h.same, h.meets⟩

lemma agree_modifyCall {k₁ k₂ : PUnit → M β} {f₁ f₂ : Call → Call} (u : Ref)
    (hf : f₁ (s.call u) = f₂ (s.call u))
    (h : Agree (s.setCall u (f₁ (s.call u))) (k₁ ⟨⟩) (k₂ ⟨⟩) Q E) :
    Agree s (modifyCall u f₁ >>= k₁) (modifyCall u f₂ >>= k₂) Q E := by
  refine ⟨?_, h.meets⟩
  change k₁ ⟨⟩ (s.setCall u (f₁ (s.call u))) = k₂ ⟨⟩ (s.setCall u (f₂ (s.call u)))
  rw [← hf]
  exact h.same

lemma agree_modifyCall_last {f₁ f₂ : Call → Call} {Q : PUnit → Sys → Prop} (u : Ref)
    (hf : f₁ (s.call u) = f₂ (s.call u)) (h : Q ⟨⟩ (s.setCall u (f₁ (s.call u)))) :
    Agree s (modifyCall u f₁) (modifyCall u f₂) Q E := by
  refine ⟨?_, h⟩
  change EStateM.Result.ok _ (s.setCall u (f₁ (s.call u))) =
    EStateM.Result.ok _ (s.setCall u (f₂ (s.call u)))
  rw [hf]

end

end M

end OmniORB
