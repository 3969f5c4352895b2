import OmniORB.Giop.Strand

/-!
# Decompressing a message

`decompressBuffer` of the ZIOP compressor, and the end of `inputMessage` that calls it. The host is
little-endian. A run comes with a log of the lengths it computes, the octets it reads, and what
becomes of the buffers.
-/

namespace OmniORB.Ziop

/-- The two buffers: the one with the received message, and the one for the message that comes out
of it. -/
inductive BufferName where
  | compressed
  | decompressed
  deriving DecidableEq

inductive Event where
  /-- a `CORBA::ULong` is computed that without wrapping around would be this -/
  | computes (exact : ℤ)
  /-- so many octets are read, of which so many were received -/
  | reads (octets received : ℕ)
  /-- the decompressor may write so many octets, and there is room for so many -/
  | offers (octets room : ℕ)
  | allocates
  | releases (b : BufferName)
  | handsOn (b : BufferName)
  deriving DecidableEq

/-- What leaves `inputMessage` other than a message: CORBA exceptions, and `std::bad_alloc`. -/
inductive Raised where
  | exn (e : Exn)
  | marshalInvalidCompressedData
  | badAlloc
  deriving DecidableEq

structure Run (α : Type) where
  log : List Event
  result : Except Raised α

namespace Run

variable {α β : Type}

def bind (x : Run α) (f : α → Run β) : Run β :=
  match x.result with
  | .error e => ⟨x.log, .error e⟩
  | .ok a => ⟨x.log ++ (f a).log, (f a).result⟩

instance : Monad Run where
  pure a := ⟨[], .ok a⟩
  bind := bind

def tell (e : Event) : Run Unit := ⟨[e], .ok ()⟩

def raise (e : Raised) : Run α := ⟨[], .error e⟩

/-- The value of an expression of type `CORBA::ULong`. -/
def ulong (exact : ℤ) : Run ℕ := ⟨[.computes exact], .ok (exact % 2 ^ 32).toNat⟩

end Run

/-- What a decompressor does with a target of some capacity: it raises an exception, puts another
buffer in the place of the target's, or fills the target. -/
inductive Decompressed (capacity : ℕ) where
  | exception
  | replaced
  | filled (octets : List UInt8) (h : octets.length ≤ capacity)

/-- What the functions rely on: the offset of the data in a new buffer, whether memory can be had,
the compressors that the manager knows, and what they do. -/
structure Surroundings (κ : Type) where
  cfg : Config
  start : ℕ
  start_le : start ≤ 32
  allocates : ℕ → Bool
  getCompressor : ℕ → Option κ
  decompress : κ → List (Option UInt8) → (capacity : ℕ) → Decompressed capacity

/-- A buffer with a message that starts with `ZIOP`, as `inputMessage` has filled it: the memory from
`start` on, and the distance from `start` to `last`. -/
structure ZiopBuffer where
  memory : ℕ → UInt8
  length : ℕ
  length_lt : length < 2 ^ 32
  magic : memory 0 = 0x5a ∧ memory 1 = 0x49 ∧ memory 2 = 0x4f ∧ memory 3 = 0x50

namespace ZiopBuffer

variable (z : ZiopBuffer)

/-- The octets of the message are in the order of the host. -/
def sameOrder : Bool := z.memory 6 &&& 0x1 = 1

/-- The first 12 octets. -/
def header : List UInt8 := (List.range 12).map z.memory

/-- The field `size`, which `ensureSaneHeader` computes. -/
def size : ℕ := headerSize z.header

def compressorId : ℕ :=
  if z.sameOrder then (z.memory 12).toNat + 0x100 * (z.memory 13).toNat
  else (z.memory 13).toNat + 0x100 * (z.memory 12).toNat

/-- The length of the body before it was compressed. -/
def originalLength : ℕ :=
  if z.sameOrder then ulongValue (z.memory 16) (z.memory 17) (z.memory 18) (z.memory 19)
  else ulongValue (z.memory 19) (z.memory 18) (z.memory 17) (z.memory 16)

/-- So many octets from behind the headers, each of them if it was received. -/
def body (n : ℕ) : List (Option UInt8) :=
  (List.range n).map fun i => if 24 + i < z.length then some (z.memory (24 + i)) else none

/-- The header of the message that comes out. -/
def giopHeader (n : ℕ) : List UInt8 :=
  0x47 :: ((List.range 7).map fun i => z.memory (i + 1)) ++
    if z.sameOrder then ulongOctets n else (ulongOctets n).reverse

end ZiopBuffer

/-- The compressors of a strand with their ids. -/
abbrev Compressors (κ : Type) := List (ℕ × κ)

section

variable {κ : Type} (env : Surroundings κ)

/-- The index is that of the compressor with the id, or 0 if the compressor is new. -/
def compressorIndex (compressors : Compressors κ) (id : ℕ) :
    Option ((compressors : Compressors κ) × Fin compressors.length) :=
  match compressors.findFinIdx? fun c => c.1 = id with
  | some i => some ⟨compressors, i⟩
  | none =>
    match env.getCompressor id with
    | some k => some ⟨compressors ++ [(id, k)], ⟨0, by simp⟩⟩
    | none => none

/-- `operator new` -/
def allocate (octets : ℕ) : Run Unit :=
  if env.allocates octets then pure () else .raise .badAlloc

/-- The size that is asked for, for a body of some length. -/
def targetSize (sz : ℕ) : ℕ := if sz ≤ env.cfg.bufferSize then env.cfg.bufferSize else sz

/-- `newBuffer` for a body of some length, with the field `end`. -/
def newTarget (gDataLen : ℕ) : Run ℕ := do
  let sz ← Run.ulong (gDataLen + 12)
  allocate env (targetSize env sz)
  .tell .allocates
  let _ ← Run.ulong (env.start + targetSize env sz)
  return targetSize env sz

/-- `source_seq.length(n)`: the sequence does not own its octets, and takes new memory to grow. -/
def growSource (z : ZiopBuffer) (zDataLen n : ℕ) : Run Unit :=
  if zDataLen < n then do
    let newmax ← Run.ulong (zDataLen * 2)
    allocate env (max n newmax)
    .tell (.reads zDataLen ((z.body zDataLen).countP Option.isSome))
  else pure ()

/-- The source for the decompressor. If the buffer does not hold the whole message, the rest is read
in behind what was there. -/
def compressedBody (s : Strand) (z : ZiopBuffer) (zDataLen : ℕ) :
    Run (List (Option UInt8) × Strand) :=
  if z.length < z.size then do
    let n ← Run.ulong (z.size - 12)
    growSource env z zDataLen n
    let missing ← Run.ulong (z.size - z.length)
    match s.inputCopyChunk missing with
    | .error e => .raise (.exn e)
    | .ok (chunk, s) =>
      let held := (z.body zDataLen ++ chunk.map some).take n
      return (held ++ List.replicate (n - held.length) none, s)
  else return (z.body zDataLen, s)

/-- The call of the decompressor, and the header of the message that comes out. -/
def decompressInto (z : ZiopBuffer) (capacity : ℕ) (source : List (Option UInt8)) (k : κ) :
    Run Buffer := do
  .tell (.reads source.length (source.countP Option.isSome))
  .tell (.offers z.originalLength (capacity - 12))
  match env.decompress k source z.originalLength with
  | .exception =>
    .tell (.releases .decompressed)
    .raise .marshalInvalidCompressedData
  | .replaced =>
    .tell (.releases .decompressed)
    .raise .marshalInvalidCompressedData
  | .filled octets _ =>
    let size ← Run.ulong (octets.length + 12)
    let _ ← Run.ulong (env.start + octets.length + 12)
    .tell (.handsOn .decompressed)
    return { capacity, data := z.giopHeader octets.length ++ octets, size }

/-- The new buffer, the strand and its compressors. The assertion about the magic holds. -/
def decompressBuffer (s : Strand) (compressors : Compressors κ) (z : ZiopBuffer) :
    Run (Buffer × Strand × Compressors κ) := do
  let zDataLen ← Run.ulong (z.length - 24)
  -- the compressor id and the original length
  .tell (.reads 20 z.length)
  let capacity ← newTarget env z.originalLength
  let (source, s) ← compressedBody env s z zDataLen
  match compressorIndex env compressors z.compressorId with
  | none => .raise .marshalInvalidCompressedData
  | some ⟨compressors, i⟩ =>
    let b ← decompressInto env z capacity source (compressors.get i).2
    return (b, s, compressors)

/-- `inputMessage`, once the buffer holds as much of the message as it can. -/
def inputZiop (s : Strand) (compressors : Compressors κ) (z : ZiopBuffer) :
    Run (Buffer × Strand × Compressors κ) := do
  -- `ensureSaneHeader`
  let _ ← Run.ulong (sizeField z.header + 12)
  let r ← decompressBuffer env s compressors z
  .tell (.releases .compressed)
  return r

end

end OmniORB.Ziop
