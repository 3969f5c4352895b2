import OmniORB.Cdr.Stream
import OmniORB.Library.Blocks
import OmniORB.Library.Triple

/-!
# Streams at the level of their markers

The inline functions of `cdrStream`, which work on markers into a buffer and ask the virtual
functions of a derived class for room, and the classes `cdrMemoryStream` and `cdrCountingStream`.
Addresses and sizes are natural numbers: a block of memory is shorter than half of the address
space, so that no sum of the source overflows.
-/

namespace OmniORB

open Library

/-- What a stream raises. The last two are none of the source's: an access outside of the buffer,
and nested calls that had not returned when the calls allowed to them were used up. -/
inductive StreamExn where
  | passEndOfMessage
  | attemptToWriteToReadOnlyBuf
  | badAlloc
  | outOfBounds
  | outOfFuel
  deriving DecidableEq, Repr

/-! ### Inline functions -/

/-- The types that `cdrStream` marshals inline; signed and unsigned ones, and floating point types
of the same size, are marshalled alike. -/
inductive Primitive where
  | octet | short | long | longLong | longDouble
  deriving DecidableEq, Repr

namespace Primitive

def align : Primitive → Alignment
  | .octet => .align1
  | .short => .align2
  | .long => .align4
  | .longLong => .align8
  | .longDouble => .align8

def size : Primitive → ℕ
  | .octet => 1
  | .short => 2
  | .long => 4
  | .longLong => 8
  | .longDouble => 16

lemma size_pos (p : Primitive) : 0 < p.size := by cases p <;> decide

end Primitive

/-- The buffer pointers of `cdrStream`. -/
structure Markers where
  inbEnd : ℕ
  inbMkr : ℕ
  outbEnd : ℕ
  outbMkr : ℕ
  deriving DecidableEq, Repr

/-- A class derived from `cdrStream`: its markers, its memory and its virtual functions. -/
structure StreamClass (σ : Type) where
  markers : σ → Markers
  setMarkers : Markers → σ → σ
  load : ℕ → ℕ → EStateM StreamExn σ (List UInt8)
  store : ℕ → List UInt8 → EStateM StreamExn σ Unit
  putOctetArray : List UInt8 → Alignment → EStateM StreamExn σ Unit
  reserveOutputSpaceForPrimitiveType : Alignment → ℕ → EStateM StreamExn σ Bool
  maybeReserveOutputSpace : Alignment → ℕ → EStateM StreamExn σ Bool
  fetchInputData : Alignment → ℕ → EStateM StreamExn σ Unit

namespace StreamClass

variable {σ : Type} (c : StreamClass σ)

def setOutbMkr (p : ℕ) (s : σ) : σ := c.setMarkers { c.markers s with outbMkr := p } s

def setInbMkr (p : ℕ) (s : σ) : σ := c.setMarkers { c.markers s with inbMkr := p } s

/-- `marshalOctet`, `marshalUShort` and the others, with the functions `reserveAndMarshal` that they
fall back on: write the octets of a value. -/
def marshal : ℕ → Primitive → List UInt8 → EStateM StreamExn σ Unit
  | 0, _, _ => throw .outOfFuel
  | fuel + 1, type, b => do
    let m := c.markers (← get)
    let p1 := alignTo m.outbMkr type.align.size
    let p2 := p1 + type.size
    if p2 ≤ m.outbEnd then
      modify (c.setOutbMkr p2)
      c.store p1 b
    else if ← c.reserveOutputSpaceForPrimitiveType type.align type.size then marshal fuel type b
    else pure ()

def putSmallOctetArray (b : List UInt8) : EStateM StreamExn σ Unit := do
  let m := c.markers (← get)
  let p2 := m.outbMkr + b.length
  if p2 ≤ m.outbEnd then
    c.store m.outbMkr b
    modify (c.setOutbMkr p2)
  else c.putOctetArray b .align1

def alignOutput : ℕ → Alignment → EStateM StreamExn σ Unit
  | 0, _ => throw .outOfFuel
  | fuel + 1, align => do
    let m := c.markers (← get)
    let p1 := alignTo m.outbMkr align.size
    if m.outbEnd < p1 then
      if ← c.reserveOutputSpaceForPrimitiveType align 0 then alignOutput fuel align
      else modify (c.setOutbMkr p1)
    else modify (c.setOutbMkr p1)

/-- `cdrStream::copy_to` with `b` for what is read from the other stream. -/
def copied (align : Alignment) (b : List UInt8) : EStateM StreamExn σ Unit := do
  if ← c.maybeReserveOutputSpace align b.length then
    let p1 := alignTo (c.markers (← get)).outbMkr align.size
    c.store p1 b
    modify (c.setOutbMkr (p1 + b.length))
  else pure ()

/-- `unmarshalOctet`, `unmarshalUShort` and the others, with the functions `fetchAndUnmarshal` that
they fall back on: the octets of a value. -/
def unmarshal : ℕ → Primitive → EStateM StreamExn σ (List UInt8)
  | 0, _ => throw .outOfFuel
  | fuel + 1, type => do
    let m := c.markers (← get)
    let p1 := alignTo m.inbMkr type.align.size
    let p2 := p1 + type.size
    if p2 ≤ m.inbEnd then
      modify (c.setInbMkr p2)
      c.load p1 type.size
    else
      c.fetchInputData type.align type.size
      unmarshal fuel type

def alignInput : ℕ → Alignment → EStateM StreamExn σ Unit
  | 0, _ => throw .outOfFuel
  | fuel + 1, align => do
    let m := c.markers (← get)
    let p1 := alignTo m.inbMkr align.size
    if m.inbEnd < p1 then
      c.fetchInputData align 0
      alignInput fuel align
    else modify (c.setInbMkr p1)

end StreamClass

/-! ### Writing -/

/-- What a program writes to a stream. -/
inductive OutputOp where
  | marshal (type : Primitive) (b : List UInt8) (hlen : b.length = type.size)
  | putOctetArray (b : List UInt8) (align : Alignment)
  | putSmallOctetArray (b : List UInt8)
  | alignOutput (align : Alignment)
  | copied (align : Alignment) (b : List UInt8)

/-- A function of a stream calls itself at most once. -/
def StreamClass.write {σ : Type} (c : StreamClass σ) : OutputOp → EStateM StreamExn σ Unit
  | .marshal type b _ => c.marshal 2 type b
  | .putOctetArray b align => c.putOctetArray b align
  | .putSmallOctetArray b => c.putSmallOctetArray b
  | .alignOutput align => c.alignOutput 2 align
  | .copied align b => c.copied align b

/-! ### Memory streams -/

/-- `cdrMemoryStream`: `buffer` is the memory that `pd_bufp` points to. `allocations` counts the
calls of `new`. -/
structure CdrMemoryStream where
  readonlyAndExternalBuffer : Bool
  clearMemory : Bool
  buffer : Block UInt8
  bufp8 : ℕ
  markers : Markers
  allocations : ℕ

/-- What `new char[n]` returns, by the number of the call; `none` stands for `std::bad_alloc`. -/
structure Allocator where
  alloc : ℕ → ℕ → Option (Block UInt8)
  length_cells : ∀ k n m, alloc k n = some m → m.cells.length = n

namespace CdrMemoryStream

/-- `ensure_align_8` -/
def ensureAlign8 (p : ℕ) : ℕ := alignTo p 8

def bufSize (s : CdrMemoryStream) : ℕ := s.markers.outbMkr - s.bufp8

def setMarkers (m : Markers) (s : CdrMemoryStream) : CdrMemoryStream := { s with markers := m }

def load (p n : ℕ) : EStateM StreamExn CdrMemoryStream (List UInt8) := do
  match (← get).buffer.load p n with
  | some b => pure b
  | none => throw .outOfBounds

def store (p : ℕ) (b : List UInt8) : EStateM StreamExn CdrMemoryStream Unit := do
  match (← get).buffer.store p b with
  | some m => modify fun s => { s with buffer := m }
  | none => throw .outOfBounds

/-- The size of a new buffer: it grows exponentially, but not too fast. -/
def newSize (datasize required : ℕ) : ℕ :=
  let newsize := datasize + required + 8
  if newsize < 1024 then newsize + datasize else newsize + datasize / 2

/-- The memory of a new buffer as it is before the data are copied into it. -/
def cleared (clearMemory : Bool) (m : Block UInt8) : Block UInt8 :=
  if clearMemory then { m with cells := List.replicate m.cells.length 0 } else m

variable (env : Allocator)

/-- The part of `reserveOutputSpace` that expands the buffer. -/
def expand (required : ℕ) : EStateM StreamExn CdrMemoryStream Unit := do
  let s ← get
  let datasize := s.markers.outbMkr - s.bufp8
  let newsize := newSize datasize required
  match env.alloc s.allocations newsize with
  | none =>
    set { s with allocations := s.allocations + 1 }
    throw .badAlloc
  | some m =>
    let m := cleared s.clearMemory m
    let bufp8 := ensureAlign8 m.base
    let data ← load s.bufp8 datasize
    match m.store bufp8 data with
    | none => throw .outOfBounds
    | some m =>
      set { s with
        buffer := m
        bufp8 := bufp8
        markers :=
          { inbEnd := bufp8 + (s.markers.inbEnd - s.bufp8)
            inbMkr := bufp8 + (s.markers.inbMkr - s.bufp8)
            outbEnd := m.base + newsize
            outbMkr := bufp8 + (s.markers.outbMkr - s.bufp8) }
        allocations := s.allocations + 1 }

def reserveOutputSpace (align : Alignment) (required : ℕ) :
    EStateM StreamExn CdrMemoryStream Bool := do
  let s ← get
  if s.readonlyAndExternalBuffer then throw .attemptToWriteToReadOnlyBuf
  else
    let required := required + (alignTo s.markers.outbMkr align.size - s.markers.outbMkr)
    if required < s.markers.outbEnd - s.markers.outbMkr then pure true
    else
      expand env required
      pure true

def putOctetArray (b : List UInt8) (align : Alignment) :
    EStateM StreamExn CdrMemoryStream Unit := do
  let _ ← reserveOutputSpace env align b.length
  let s ← get
  let p1 := alignTo s.markers.outbMkr align.size
  store p1 b
  modify fun s => s.setMarkers { s.markers with outbMkr := p1 + b.length }

/-- `if (!pd_readonly_and_external_buffer) pd_inb_end = pd_outb_mkr` -/
def updateInbEnd (s : CdrMemoryStream) : CdrMemoryStream :=
  if s.readonlyAndExternalBuffer then s
  else s.setMarkers { s.markers with inbEnd := s.markers.outbMkr }

def fetchInputData (align : Alignment) (required : ℕ) : EStateM StreamExn CdrMemoryStream Unit := do
  modify updateInbEnd
  let m := (← get).markers
  let required := required + (alignTo m.inbMkr align.size - m.inbMkr)
  if m.inbEnd - m.inbMkr < required then throw .passEndOfMessage else pure ()

def getOctetArray (size : ℕ) (align : Alignment) :
    EStateM StreamExn CdrMemoryStream (List UInt8) := do
  fetchInputData align size
  let s ← get
  let p1 := alignTo s.markers.inbMkr align.size
  let b ← load p1 size
  set (s.setMarkers { s.markers with inbMkr := p1 + size })
  pure b

def skipInput (size : ℕ) : EStateM StreamExn CdrMemoryStream Unit := do
  fetchInputData .align1 size
  modify fun s => s.setMarkers { s.markers with inbMkr := s.markers.inbMkr + size }

/-- The number of octets is the product of two `CORBA::ULong`. -/
def checkInputOverrun (itemSize nItems : ℕ) (align : Alignment) :
    EStateM StreamExn CdrMemoryStream Bool := do
  modify updateInbEnd
  let m := (← get).markers
  pure (alignTo m.inbMkr align.size + itemSize * nItems % 2 ^ 32 ≤ m.inbEnd)

def rewindInputPtr (s : CdrMemoryStream) : CdrMemoryStream :=
  s.setMarkers { s.markers with
    inbMkr := s.bufp8
    inbEnd := if s.readonlyAndExternalBuffer then s.markers.inbEnd else s.markers.outbMkr }

def rewindPtrs (s : CdrMemoryStream) : CdrMemoryStream :=
  if s.readonlyAndExternalBuffer then
    s.setMarkers { s.markers with outbMkr := 0, outbEnd := 0, inbMkr := s.buffer.base }
  else s.setMarkers { s.markers with outbMkr := s.bufp8, inbMkr := s.bufp8, inbEnd := s.bufp8 }

/-- The class, for the inline functions. -/
def streamClass : StreamClass CdrMemoryStream where
  markers := markers
  setMarkers := setMarkers
  load := load
  store := store
  putOctetArray := putOctetArray env
  reserveOutputSpaceForPrimitiveType := reserveOutputSpace env
  maybeReserveOutputSpace := reserveOutputSpace env
  fetchInputData := fetchInputData

/-! ### Constructors -/

/-- A stream in its `pd_inline_buffer`, after `rewindPtrs`. -/
def ofInline (inlineBuffer : Block UInt8) (clearMemory : Bool) : CdrMemoryStream where
  readonlyAndExternalBuffer := false
  clearMemory := clearMemory
  buffer := inlineBuffer
  bufp8 := ensureAlign8 inlineBuffer.base
  markers :=
    { inbEnd := ensureAlign8 inlineBuffer.base
      inbMkr := ensureAlign8 inlineBuffer.base
      outbEnd := inlineBuffer.limit
      outbMkr := ensureAlign8 inlineBuffer.base }
  allocations := 0

/-- `cdrMemoryStream(initialBufsize, clearMemory)`, with the memory of `pd_inline_buffer` as it is
found. -/
def new (inlineBuffer : Block UInt8) (initialBufsize : ℕ) (clearMemory : Bool) :
    EStateM.Result StreamExn CdrMemoryStream Unit :=
  let s := ofInline inlineBuffer clearMemory
  let room : EStateM StreamExn CdrMemoryStream Bool :=
    if s.markers.outbEnd - s.markers.outbMkr < initialBufsize then
      reserveOutputSpace env .align8 initialBufsize
    else pure true
  (room >>= fun _ => modify fun s => { s with buffer := cleared clearMemory s.buffer }) s

/-- `cdrMemoryStream(databuffer, maxLen)` -/
def ofExternal (databuffer : Block UInt8) : CdrMemoryStream where
  readonlyAndExternalBuffer := true
  clearMemory := false
  buffer := databuffer
  bufp8 := databuffer.base
  markers := ⟨databuffer.limit, databuffer.base, 0, 0⟩
  allocations := 0

/-- `cdrEncapsulationStream(databuffer, bufsize)`, before it reads the byte order: octets that do
not start at a multiple of 8 are copied. -/
def ofEncapsulation (inlineBuffer databuffer : Block UInt8) :
    EStateM.Result StreamExn CdrMemoryStream Unit :=
  if databuffer.base = alignTo databuffer.base 8 then .ok () (ofExternal databuffer)
  else putOctetArray env databuffer.cells .align1 (ofInline inlineBuffer false)

end CdrMemoryStream

/-! ### Counting streams -/

/-- `cdrCountingStream`: `pd_total`. Its markers are those of the constructor of `cdrStream`, null
pointers. -/
structure CdrCountingStream where
  total : ℕ
  markers : Markers
  deriving DecidableEq, Repr

namespace CdrCountingStream

def new (initialoffset : ℕ) : CdrCountingStream := ⟨initialoffset, ⟨0, 0, 0, 0⟩⟩

def maybeReserveOutputSpace (align : Alignment) (required : ℕ) :
    EStateM StreamExn CdrCountingStream Bool := do
  modify fun s => { s with total := alignTo s.total align.size + required }
  pure false

def putOctetArray (b : List UInt8) (align : Alignment) : EStateM StreamExn CdrCountingStream Unit :=
  modify fun s => { s with total := alignTo s.total align.size + b.length }

/-- There is no buffer: only no octets at all can be stored. -/
def store (b : List UInt8) : EStateM StreamExn CdrCountingStream Unit :=
  if b = [] then pure () else throw .outOfBounds

/-- The class, for the inline functions. -/
def streamClass : StreamClass CdrCountingStream where
  markers := markers
  setMarkers m s := { s with markers := m }
  load _ n := if n = 0 then pure [] else throw .outOfBounds
  store _ b := store b
  putOctetArray := putOctetArray
  reserveOutputSpaceForPrimitiveType := maybeReserveOutputSpace
  maybeReserveOutputSpace := maybeReserveOutputSpace
  fetchInputData _ _ := pure ()

end CdrCountingStream

end OmniORB
