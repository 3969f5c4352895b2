import OmniORB.Giop.Strand

/-!
# Checking for input before reading it

`checkInputOverrun` of `cdrMemoryStream` and `giopStream`, with `fetchInputData` of the one and
`inputRemaining` of the implementations of GIOP behind the other. Markers are addresses; they are
far from the end of the address space, so that nothing but the product of the two `CORBA::ULong`
wraps.
-/

namespace OmniORB

open Library

/-- How far `p1` is moved up to an alignment. -/
def padding (p1 : ℕ) (al : Alignment) : ℕ := alignTo p1 al.size - p1

/-- The markers of a `cdrMemoryStream`. What has been written to a stream with a buffer of its own
is its input. -/
structure MemoryStream where
  inbMkr : ℕ
  inbEnd : ℕ
  outbMkr : ℕ
  readonlyAndExternalBuffer : Bool
  inbMkr_le : inbMkr ≤ if readonlyAndExternalBuffer then inbEnd else outbMkr

namespace MemoryStream

/-- `if (!pd_readonly_and_external_buffer) pd_inb_end = pd_outb_mkr` -/
def setInbEnd (s : MemoryStream) : MemoryStream where
  inbMkr := s.inbMkr
  inbEnd := if s.readonlyAndExternalBuffer then s.inbEnd else s.outbMkr
  outbMkr := s.outbMkr
  readonlyAndExternalBuffer := s.readonlyAndExternalBuffer
  inbMkr_le := by
    have hle := s.inbMkr_le
    cases hr : s.readonlyAndExternalBuffer <;> simpa [hr] using hle

/-- The octets that are left to be read. -/
def remaining (s : MemoryStream) : ℕ := s.setInbEnd.inbEnd - s.inbMkr

def checkInputOverrun (s : MemoryStream) (itemSize nItems : UInt32) (al : Alignment) :
    Bool × MemoryStream :=
  let s := s.setInbEnd
  let p1 := alignTo s.inbMkr al.size + (itemSize * nItems).toNat
  (if s.inbEnd < p1 then false else true, s)

def fetchInputData (s : MemoryStream) (al : Alignment) (required : ℕ) : Except Exn MemoryStream :=
  let s := s.setInbEnd
  let avail := s.inbEnd - s.inbMkr
  if avail < required + (alignTo s.inbMkr al.size - s.inbMkr) then .error .marshalPassEndOfMessage
  else .ok s

end MemoryStream

/-! ### GIOP streams -/

/-- The implementations of `giopStreamImpl`. -/
inductive GiopImpl where
  | giopImpl10 | giopImpl11 | giopImpl12
  deriving DecidableEq, Repr

/-- What a `giopStream` knows of the message it reads. `laterFragments`, the octets in fragments
that have not come, is what it does not know. -/
structure GiopInput where
  impl : GiopImpl
  inbMkr : ℕ
  inbEnd : ℕ
  inputFragmentToCome : ℕ
  inputMessageSize : ℕ
  inputExpectAnotherFragment : Bool
  laterFragments : ℕ
  inbMkr_le : inbMkr ≤ inbEnd
  le_inputMessageSize : inputFragmentToCome + (inbEnd - inbMkr) ≤ inputMessageSize
  laterFragments_eq : inputExpectAnotherFragment = false → laterFragments = 0
  whole_of_giopImpl10 : impl = .giopImpl10 → inputExpectAnotherFragment = false

namespace GiopInput

variable (cfg : Config)

def currentInputPtr (g : GiopInput) : ℕ :=
  g.inputMessageSize - g.inputFragmentToCome - (g.inbEnd - g.inbMkr)

/-- `inputRemaining`; the difference is one of `size_t`. -/
def inputRemaining (g : GiopInput) : ℕ :=
  let buffered := g.inputFragmentToCome + (g.inbEnd - g.inbMkr)
  match g.impl with
  | .giopImpl10 => buffered
  | .giopImpl11 | .giopImpl12 =>
    if g.inputExpectAnotherFragment then
      (cfg.giopMaxMsgSize + 2 ^ 64 - g.currentInputPtr % 2 ^ 64) % 2 ^ 64
    else buffered

def checkInputOverrun (g : GiopInput) (itemSize nItems : UInt32) (al : Alignment) : Bool :=
  let avail := g.inputRemaining cfg
  let p1 := alignTo g.inbMkr al.size + (itemSize * nItems).toNat
  if avail < p1 - g.inbMkr then false else true

/-- The octets of the message that are left to be read. -/
def remaining (g : GiopInput) : ℕ :=
  g.inputFragmentToCome + (g.inbEnd - g.inbMkr) + g.laterFragments

end GiopInput

/-! ### Exactness -/

end OmniORB
