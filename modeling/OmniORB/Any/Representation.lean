import Mathlib

/-!
# Anys

The representations of an Any and the functions that change between them, as in `any.cc`. TypeCodes,
the functions that copy what a TypeCode describes, and the functions of the stubs are parameters. A
pointer is an optional object, so that zero is `none`.
-/

namespace OmniORB.Any

/-! ### What an Any uses -/

/-- `TCKind`, as far as an Any looks at it. -/
inductive Kind where
  | null
  | void
  | objref
  | value
  | valueBox
  | abstractInterface
  | other
  deriving DecidableEq

namespace Kind

/-- Kinds of which nil is a null pointer. -/
def hasNil : Kind → Bool
  | objref | value | valueBox | abstractInterface => true
  | _ => false

/-- Kinds without data. -/
def isEmpty : Kind → Bool
  | null | void => true
  | _ => false

end Kind

/-- A message that is being read: what has been read, and the rest. -/
structure Reader where
  before : List UInt8
  rest : List UInt8

/-- The functions of a stub: `pr_marshal_fn`, into the stream of an Any and into a message, and
`pr_unmarshal_fn`. -/
structure Stub (D Buf : Type) where
  toStream : Option D → Buf
  toMessage : Option D → List UInt8 → List UInt8
  fromStream : Buf → Option D

/-- What an Any uses of the ORB: TypeCodes, and the functions of `tcParser`. -/
structure Orb (TC D Buf : Type) where
  tcNull : TC
  kind : TC → Kind
  equivalent : TC → TC → Bool
  tcAliasExpand : Bool
  aliasExpand : TC → TC
  marshalTypeCode : TC → List UInt8 → List UInt8
  unmarshalTypeCode : Reader → Option (TC × Reader)
  /-- `copyMemStreamToStream_rdonly` -/
  copyToMessage : TC → Buf → List UInt8 → List UInt8
  /-- `copyStreamToStream`, which may throw with a part of the data copied. -/
  copyFromMessage : TC → Reader → Buf × Option Reader
  /-- `cdrAnyMemoryStream::_empty` -/
  emptyBuf : Buf
  /-- `ValueBase::_NP_unmarshal` -/
  unmarshalValueBase : Buf → Option D

/-! ### An Any -/

/-- A stream is shared by the copies of an Any. -/
structure MemStream (Buf : Type) where
  id : ℕ
  buf : Buf

/-- `CORBA::Any`. The functions are `pd_marshal` and `pd_destructor`. -/
structure Rep (TC D Buf : Type) where
  tc : Option TC
  mbuf : Option (MemStream Buf)
  data : Option D
  fns : Option (Stub D Buf)

/-- How a function ends. -/
inductive Outcome (D Buf : Type) where
  | done
  | extracted (success : Bool) (data : Option D)
  | written (message : List UInt8)
  | read (r : Reader)
  | stream (buf : Buf)
  | thrown
  | assertion
  | crash

variable {TC D Buf : Type} (orb : Orb TC D Buf)

/-- Extract possibly zero typecode. -/
def Orb.get (tc : Option TC) : TC := tc.getD orb.tcNull

/-- The TypeCode that is marshalled. -/
def Orb.written (tc : TC) : TC := if orb.tcAliasExpand then orb.aliasExpand tc else tc

namespace Rep

/-- `PR_clearData` -/
def clearData (a : Rep TC D Buf) : Rep TC D Buf :=
  { a with mbuf := none, data := none, fns := none }

/-- An Any with a stream only. -/
def streamOnly (tc : Option TC) (s : Option (MemStream Buf)) : Rep TC D Buf :=
  { tc, mbuf := s, data := none, fns := none }

/-- The pointer is null, and there is a function for it. -/
def holdsNull (a : Rep TC D Buf) : Bool := a.data.isNone && a.mbuf.isNone && a.fns.isSome

/-! #### Constructors and assignment -/

/-- `Any::Any(const Any&)`, and `Any::operator=` -/
def copy (a : Rep TC D Buf) (id : ℕ) : Rep TC D Buf × Outcome D Buf :=
  match a.mbuf, a.data, a.fns with
  | some s, _, _ => (streamOnly a.tc (some s), .done)
  | none, none, _ => (streamOnly a.tc none, .done)
  | none, some d, some fns => (streamOnly a.tc (some ⟨id, fns.toStream (some d)⟩), .done)
  | none, some _, none => (a, .crash)

/-- `Any::Any(TypeCode_ptr, void*, Boolean)`, and `Any::replace` -/
def replace (tc : TC) (buf : Option Buf) (id : ℕ) : Rep TC D Buf :=
  streamOnly (some tc) (buf.map fun buf => ⟨id, buf⟩)

/-! #### Marshalling -/

/-- A call of `pd_marshal` behind its assertion. -/
def callMarshal (a : Rep TC D Buf) (data : Option D) (m : List UInt8) : Outcome D Buf :=
  match a.fns with
  | some fns => .written (fns.toMessage data m)
  | none => .assertion

/-- `Any::NP_marshalDataOnly` -/
def marshalDataOnly (a : Rep TC D Buf) (m : List UInt8) : Outcome D Buf :=
  match a.data, a.mbuf with
  | some d, _ => a.callMarshal (some d) m
  | none, some s => .written (orb.copyToMessage (orb.get a.tc) s.buf m)
  | none, none =>
    if (orb.kind (orb.get a.tc)).hasNil then a.callMarshal none m
    else if (orb.kind (orb.get a.tc)).isEmpty then .written m else .assertion

/-- `Any::operator>>=(cdrStream&)` -/
def marshal (a : Rep TC D Buf) (m : List UInt8) : Outcome D Buf :=
  a.marshalDataOnly orb (orb.marshalTypeCode (orb.written (orb.get a.tc)) m)

/-- A new stream is filled from a message. -/
def fill (tc : Option TC) (r : Reader) (id : ℕ) : Rep TC D Buf × Outcome D Buf :=
  match orb.copyFromMessage (orb.get tc) r with
  | (buf, some r') => (streamOnly tc (some ⟨id, buf⟩), .read r')
  | (buf, none) => (streamOnly tc (some ⟨id, buf⟩), .thrown)

/-- `Any::operator<<=(cdrStream&)` -/
def unmarshal (a : Rep TC D Buf) (r : Reader) (id : ℕ) : Rep TC D Buf × Outcome D Buf :=
  match orb.unmarshalTypeCode r with
  | none => (a.clearData, .thrown)
  | some (tc, r') =>
    if (orb.kind tc).isEmpty then (streamOnly (some tc) none, .read r')
    else fill orb (some tc) r' id

/-- `Any::NP_unmarshalDataOnly` -/
def unmarshalDataOnly (a : Rep TC D Buf) (r : Reader) (id : ℕ) : Rep TC D Buf × Outcome D Buf :=
  fill orb a.tc r id

/-! #### Insertion and extraction -/

/-- `Any::PR_insert` of a value that stays with the caller, and the insertion of a simple type. -/
def insert (tc : TC) (stub : Stub D Buf) (data : Option D) (id : ℕ) : Rep TC D Buf :=
  streamOnly (some tc) (some ⟨id, stub.toStream data⟩)

/-- `Any::PR_insert` of a value that the Any takes over. -/
def insertConsuming (tc : TC) (stub : Stub D Buf) (data : Option D) : Rep TC D Buf :=
  { tc := some tc, mbuf := none, data, fns := some stub }

/-- `Any::PR_extract` into a variable. -/
def extract (a : Rep TC D Buf) (tc : TC) (stub : Stub D Buf) : Outcome D Buf :=
  if orb.equivalent tc (orb.get a.tc) then
    match a.mbuf, a.data with
    | some s, _ => .extracted true (stub.fromStream s.buf)
    | none, none => .extracted false none
    | none, some _ => .assertion
  else .extracted false none

/-- `Any::operator>>=` into a variable of a simple type. -/
def extractSimple (a : Rep TC D Buf) (tc : TC) (stub : Stub D Buf) : Outcome D Buf :=
  if orb.equivalent (orb.get a.tc) tc then
    match a.mbuf with
    | some s => .extracted true (stub.fromStream s.buf)
    | none => .assertion
  else .extracted false none

/-- `Any::PR_extract` of a pointer, which the Any keeps. -/
def extractPointer (a : Rep TC D Buf) (tc : TC) (stub : Stub D Buf) :
    Rep TC D Buf × Outcome D Buf :=
  if orb.equivalent tc (orb.get a.tc) then
    match a.data, a.mbuf with
    | some d, _ => (a, .extracted true (some d))
    | none, some s =>
      ({ a with data := stub.fromStream s.buf, fns := some stub },
        .extracted true (stub.fromStream s.buf))
    | none, none => (a, .extracted false none)
  else (a, .extracted false none)

/-- `Any::operator>>=(to_object)` and `Any::operator>>=(to_abstract_base)`: any TypeCode of the
kind, with its own TypeCode. -/
def extractOwn (a : Rep TC D Buf) (kind : Kind) (stub : Stub D Buf) :
    Rep TC D Buf × Outcome D Buf :=
  if orb.kind (orb.get a.tc) = kind then a.extractPointer orb (orb.get a.tc) stub
  else (a, .extracted false none)

/-- `Any::operator>>=(to_value)`, and whether it reads in the stream itself, from which another one
may have `taken` the value. -/
def toValue (a : Rep TC D Buf) (taken : List ℕ) : List ℕ × Outcome D Buf :=
  if orb.kind (orb.get a.tc) = .value ∨ orb.kind (orb.get a.tc) = .valueBox then
    match a.mbuf, a.data, a.fns with
    | some s, _, _ =>
      if s.id ∈ taken then (taken, .thrown)
      else (s.id :: taken, .extracted true (orb.unmarshalValueBase s.buf))
    | none, some d, some fns =>
      (taken, .extracted true (orb.unmarshalValueBase (fns.toStream (some d))))
    | none, _, _ => (taken, .assertion)
  else (taken, .extracted false none)

/-! #### Streams and types -/

/-- `Any::PR_streamToRead` -/
def streamToRead (a : Rep TC D Buf) (id : ℕ) : Rep TC D Buf × Outcome D Buf :=
  match a.mbuf, a.fns with
  | some s, _ => (a, .stream s.buf)
  | none, some fns =>
    ({ a with mbuf := some ⟨id, fns.toStream a.data⟩ }, .stream (fns.toStream a.data))
  | none, none =>
    if (orb.kind (orb.get a.tc)).isEmpty then
      ({ a with mbuf := some ⟨id, orb.emptyBuf⟩ }, .stream orb.emptyBuf)
    else (a, .thrown)

/-- `Any::PR_streamToWrite`, and what the caller writes. -/
def streamToWrite (a : Rep TC D Buf) (buf : Buf) (id : ℕ) : Rep TC D Buf :=
  { a.clearData with mbuf := some ⟨id, buf⟩ }

/-- `Any::type(TypeCode_ptr)` -/
def setType (a : Rep TC D Buf) (tc : TC) : Rep TC D Buf × Outcome D Buf :=
  if orb.equivalent (orb.get a.tc) tc then ({ a with tc := some tc }, .done) else (a, .thrown)

/-- `Any::value` -/
def value (a : Rep TC D Buf) (id : ℕ) : Rep TC D Buf × Outcome D Buf :=
  if (orb.kind (orb.get a.tc)).isEmpty then (a, .done)
  else
    match a.mbuf, a.fns with
    | some s, _ => (a, .stream s.buf)
    | none, some fns =>
      ({ a with mbuf := some ⟨id, fns.toStream a.data⟩ }, .stream (fns.toStream a.data))
    | none, none => (a, .assertion)

end Rep

/-! ### A program with Anys -/

/-- An operation of a program on its Anys. -/
inductive Event (TC D Buf : Type) where
  | new
  | newTyped (tc : TC) (buf : Option Buf)
  | newCopy (i : ℕ)
  | assign (i j : ℕ)
  | replace (i : ℕ) (tc : TC) (buf : Option Buf)
  | insert (i : ℕ) (tc : TC) (stub : Stub D Buf) (data : Option D)
  | insertConsuming (i : ℕ) (tc : TC) (stub : Stub D Buf) (data : Option D)
  | extract (i : ℕ) (tc : TC) (stub : Stub D Buf)
  | extractSimple (i : ℕ) (tc : TC) (stub : Stub D Buf)
  | extractPointer (i : ℕ) (tc : TC) (stub : Stub D Buf)
  | extractOwn (i : ℕ) (kind : Kind) (stub : Stub D Buf)
  | toValue (i : ℕ)
  | marshal (i : ℕ) (m : List UInt8)
  | marshalDataOnly (i : ℕ) (m : List UInt8)
  | unmarshal (i : ℕ) (r : Reader)
  | unmarshalDataOnly (i : ℕ) (r : Reader)
  | streamToRead (i : ℕ)
  | streamToWrite (i : ℕ) (buf : Buf)
  | setType (i : ℕ) (tc : TC)
  | value (i : ℕ)

/-- The Anys of a program, the number for the next stream, and the streams whose value `to_value`
has taken. -/
structure Store (TC D Buf : Type) where
  anys : List (Rep TC D Buf)
  next : ℕ
  taken : List ℕ

namespace Store

def initial : Store TC D Buf := ⟨[], 0, []⟩

variable (st : Store TC D Buf)

/-- An operation that changes one Any. -/
def change (i : ℕ) (f : Rep TC D Buf → Rep TC D Buf × Outcome D Buf) :
    Store TC D Buf × Outcome D Buf :=
  match st.anys[i]? with
  | none => (st, .done)
  | some a => ({ st with anys := st.anys.set i (f a).1, next := st.next + 1 }, (f a).2)

/-- An operation that adds an Any. -/
def push (r : Rep TC D Buf × Outcome D Buf) : Store TC D Buf × Outcome D Buf :=
  ({ st with anys := st.anys ++ [r.1], next := st.next + 1 }, r.2)

def step : Event TC D Buf → Store TC D Buf × Outcome D Buf
  | .new => st.push (.streamOnly none none, .done)
  | .newTyped tc buf => st.push (.replace tc buf st.next, .done)
  | .newCopy i =>
    match st.anys[i]? with
    | none => (st, .done)
    | some a => st.push (a.copy st.next)
  | .assign i j =>
    match st.anys[j]? with
    | none => (st, .done)
    | some b => if i = j then (st, .done) else st.change i fun _ => b.copy st.next
  | .replace i tc buf => st.change i fun _ => (.replace tc buf st.next, .done)
  | .insert i tc stub data => st.change i fun _ => (.insert tc stub data st.next, .done)
  | .insertConsuming i tc stub data => st.change i fun _ => (.insertConsuming tc stub data, .done)
  | .extract i tc stub => st.change i fun a => (a, a.extract orb tc stub)
  | .extractSimple i tc stub => st.change i fun a => (a, a.extractSimple orb tc stub)
  | .extractPointer i tc stub => st.change i fun a => a.extractPointer orb tc stub
  | .extractOwn i kind stub => st.change i fun a => a.extractOwn orb kind stub
  | .toValue i =>
    match st.anys[i]? with
    | none => (st, .done)
    | some a => ({ st with taken := (a.toValue orb st.taken).1 }, (a.toValue orb st.taken).2)
  | .marshal i m => st.change i fun a => (a, a.marshal orb m)
  | .marshalDataOnly i m => st.change i fun a => (a, a.marshalDataOnly orb m)
  | .unmarshal i r => st.change i fun a => a.unmarshal orb r st.next
  | .unmarshalDataOnly i r => st.change i fun a => a.unmarshalDataOnly orb r st.next
  | .streamToRead i => st.change i fun a => a.streamToRead orb st.next
  | .streamToWrite i buf => st.change i fun a => (a.streamToWrite buf st.next, .done)
  | .setType i tc => st.change i fun a => a.setType orb tc
  | .value i => st.change i fun a => a.value orb st.next

/-- The operations of a history, whose last one comes first. -/
def run : List (Event TC D Buf) → Store TC D Buf
  | [] => initial
  | e :: history => ((run history).step orb e).1

end Store

end OmniORB.Any
