import OmniORB.Any.Contents

/-!
# An ORB with two types

Octets and object references, of which there is only nil, with their encodings in the byte order of
a little-endian machine.
-/

namespace OmniORB.Any

inductive SmallType where
  | null
  | octet
  | object
  deriving DecidableEq

inductive SmallValue where
  | empty
  | octet (b : UInt8)
  | nil

/-- The padding to a multiple of four octets. -/
def pad (m : List UInt8) : List UInt8 := List.replicate ((4 - m.length % 4) % 4) 0

/-- The octets are next in the message. -/
def Reader.skip (r : Reader) (o : List UInt8) : Option Reader :=
  if r.rest.take o.length = o then some ⟨r.before ++ o, r.rest.drop o.length⟩ else none

namespace SmallValue

/-- An empty repository id and no profiles. -/
def nilReference : List UInt8 := [1, 0, 0, 0, 0, 0, 0, 0, 0, 0, 0, 0]

def encode (m : List UInt8) : SmallValue → List UInt8
  | empty => []
  | octet b => [b]
  | nil => pad m ++ nilReference

end SmallValue

namespace SmallType

/-- `tk_objref`, with the repository id `IDL:omg.org/CORBA/Object:1.0` and an empty name. -/
def objectTypeCode : List UInt8 :=
  [14, 0, 0, 0, 45, 0, 0, 0, 1, 0, 0, 0, 29, 0, 0, 0] ++
    [0x49, 0x44, 0x4c, 0x3a, 0x6f, 0x6d, 0x67, 0x2e, 0x6f, 0x72, 0x67, 0x2f, 0x43, 0x4f, 0x52,
      0x42, 0x41, 0x2f, 0x4f, 0x62, 0x6a, 0x65, 0x63, 0x74, 0x3a, 0x31, 0x2e, 0x30, 0] ++
    [0, 0, 0, 1, 0, 0, 0, 0]

def typeCode (m : List UInt8) : SmallType → List UInt8
  | null => pad m ++ [0, 0, 0, 0]
  | octet => pad m ++ [10, 0, 0, 0]
  | object => pad m ++ objectTypeCode

def decode (tc : SmallType) (r : Reader) : Option (SmallValue × Reader) :=
  match tc, r.rest with
  | null, _ => some (.empty, r)
  | octet, [] => none
  | octet, b :: rest => some (.octet b, ⟨r.before ++ [b], rest⟩)
  | object, _ => (r.skip (SmallValue.nil.encode r.before)).map fun r' => (.nil, r')

/-- What the stream of an Any begins with. -/
def contents (tc : SmallType) (buf : List UInt8) : Option SmallValue :=
  (tc.decode ⟨[], buf⟩).map Prod.fst

end SmallType

/-! ### The ORB -/

end OmniORB.Any
