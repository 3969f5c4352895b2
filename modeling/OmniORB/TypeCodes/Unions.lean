import OmniORB.Library.LinearSearch

/-!
# The TypeCodes of unions

The labels and the default of a union, in the three ways a union TypeCode is made: by a stub, by
`create_union_tc` and from the network.
-/

namespace OmniORB

open Library

namespace TypeCodes

/-- Discriminator values of all types. -/
abbrev Discriminator := BitVec 64

/-- The TypeCode of a discriminator. `other` is any that is not a discriminator's. -/
inductive DiscriminatorType where
  | char
  | boolean
  | octet
  | short
  | ushort
  | long
  | ulong
  | longlong
  | ulonglong
  | enum (id : String) (memberCount : BitVec 32)
  | alias (content : DiscriminatorType)
  | other
deriving DecidableEq

inductive UnionExn where
  | invalidInitialSize
  | illegitimateDiscriminatorType
  | incompatibleDiscriminatorType
  | duplicateLabelValue
  | badTypeCode
  | invalidEnumValue
  | fatal
deriving DecidableEq

/-- The label of a member, as it is given to `create_union_tc`. -/
inductive Label where
  | char (c : BitVec 8)
  | boolean (c : Bool)
  | octet (c : BitVec 8)
  | short (c : BitVec 16)
  | ushort (c : BitVec 16)
  | long (c : BitVec 32)
  | ulong (c : BitVec 32)
  | longlong (c : BitVec 64)
  | ulonglong (c : BitVec 64)
  | enum (id : String) (c : BitVec 32)
  | other

namespace DiscriminatorType

/-- Without the aliases. -/
def expand : DiscriminatorType → DiscriminatorType
  | .alias t => t.expand
  | t => t

/-- What `has_implicit_default` takes for the number of values. -/
def npossible (t : DiscriminatorType) : Except UnionExn ℕ :=
  match t.expand with
  | short | ushort => .ok 65536
  | long | ulong => .ok 0xffffffff
  | boolean => .ok 2
  | char | octet => .ok 256
  | longlong | ulonglong => .ok 0xffffffffffffffff
  | enum _ memberCount => .ok memberCount.toNat
  | _ => .error .badTypeCode

end DiscriminatorType

/-- The label widened to a discriminator value. -/
def Label.value : Label → Discriminator
  | char c | octet c => c.setWidth 64
  | boolean c => if c then 1 else 0
  | short c => c.signExtend 64
  | ushort c => c.setWidth 64
  | long c => c.signExtend 64
  | ulong c => c.setWidth 64
  | longlong c | ulonglong c => c
  | enum _ c => c.setWidth 64
  | other => 0

def Label.sign : Label → Bool
  | short _ | long _ | longlong _ => true
  | _ => false

def Label.isOctet : Label → Bool
  | octet _ => true
  | _ => false

/-- `equivalent` for a discriminator and an enumeration. -/
def DiscriminatorType.isEnum (t : DiscriminatorType) (id : String) : Bool :=
  match t.expand with
  | enum id' _ => id' = id
  | _ => false

/-- The checks of the label's own type. -/
def checkLabelKind (dtc : DiscriminatorType) : Label → Except UnionExn Unit
  | .enum id _ => if dtc.isEnum id then .ok () else .error .incompatibleDiscriminatorType
  | .other => .error .illegitimateDiscriminatorType
  | _ => .ok ()

/-- The checks of the label's value, where `aetc` is the discriminator's type without its aliases. -/
def checkLabelValue (aetc : DiscriminatorType) (label : Label) : Except UnionExn Unit :=
  let v := label.value
  let refuse (b : Bool) (e : UnionExn) : Except UnionExn Unit := if b then .error e else .ok ()
  match aetc with
  | .char =>
    match label with
    | .char _ => .ok ()
    | _ => .error .incompatibleDiscriminatorType
  | .boolean =>
    match label with
    | .boolean _ => .ok ()
    | _ => .error .incompatibleDiscriminatorType
  | .short => refuse (label.sign && v.toInt < -32768 || 32767 < v.toNat) .illegitimateDiscriminatorType
  | .ushort => refuse (label.sign && v.toInt < 0 || 65536 < v.toNat) .illegitimateDiscriminatorType
  | .long =>
    refuse (!label.sign && 2147483647 < v.toNat || label.sign && v.toInt < -2147483647 - 1)
      .illegitimateDiscriminatorType
  | .ulong => refuse (label.sign && v.toInt < 0 || 0xffffffff < v.toNat) .illegitimateDiscriminatorType
  | .longlong => refuse (!label.sign && 0x7fffffffffffffff < v.toNat) .illegitimateDiscriminatorType
  | .ulonglong => refuse (label.sign && v.toInt < 0) .illegitimateDiscriminatorType
  | .enum _ memberCount => refuse (memberCount.toNat ≤ v.toNat) .invalidEnumValue
  | _ => .error .badTypeCode

def extractLabel (label : Label) (dtc : DiscriminatorType) : Except UnionExn Discriminator := do
  checkLabelKind dtc label
  checkLabelValue dtc.expand label
  return label.value

/-- The label that is read where the stream has the given octets. -/
def unmarshalLabel (dtc : DiscriminatorType) (word : BitVec 64) : Except UnionExn Discriminator :=
  match dtc.expand with
  | .char | .octet => .ok ((word.setWidth 8).setWidth 64)
  | .boolean => .ok (if word.setWidth 8 = 0 then 0 else 1)
  | .short => .ok ((word.setWidth 16).signExtend 64)
  | .ushort => .ok ((word.setWidth 16).setWidth 64)
  | .long => .ok ((word.setWidth 32).signExtend 64)
  | .ulong | .enum _ _ => .ok ((word.setWidth 32).setWidth 64)
  | .longlong | .ulonglong => .ok word
  | _ => .error .fatal

/-- `TYPECODE_UNION_IMPLICIT_DEFAULT`. -/
def implicitDefault : ℤ := -1

/-- `TYPECODE_UNION_NO_DEFAULT`. -/
def noDefault : ℤ := -2

structure TypeCodeUnion where
  discrim : DiscriminatorType
  /-- The labels of the members. The one of the default member means nothing. -/
  labels : List Discriminator
  default : ℤ
  haveCalculatedDefaultValue : Bool
  /-- Whatever the memory holds, until it is calculated. -/
  defaultValue : Discriminator

namespace TypeCodeUnion

/-- `has_implicit_default`, for a union that knows `memberCount` members. -/
def hasImplicitDefault (discrim : DiscriminatorType) (default : ℤ) (memberCount : ℕ) :
    Except UnionExn Bool :=
  if 0 ≤ default then .ok false
  else do
    let npossible ← discrim.npossible
    return memberCount < npossible

/-- The end of both constructors that take members. -/
def classify (discrim : DiscriminatorType) (default : ℤ) (memberCount : ℕ) : Except UnionExn ℤ := do
  if default = implicitDefault then
    if ← hasImplicitDefault discrim default memberCount then return default else return noDefault
  else return default

/-- The default, and the label of the member `i`. -/
def memberLabel (discrim : DiscriminatorType) (default : ℤ) (i : ℕ) (label : Label) :
    Except UnionExn (ℤ × Discriminator) :=
  if label.isOctet then
    if 0 ≤ default then .error .illegitimateDiscriminatorType
    else if label.value ≠ 0 then .error .illegitimateDiscriminatorType
    else .ok (i, 0)
  else (extractLabel label discrim).map fun v => (default, v)

/-- Copies the next member, given the default and the labels up to it. -/
def addMember (discrim : DiscriminatorType) (s : ℤ × List Discriminator) (label : Label) :
    Except UnionExn (ℤ × List Discriminator) := do
  let i := s.2.length
  let (default, alabel) ← memberLabel discrim s.1 i label
  if (i : ℤ) ≠ default ∧ ∃ j < i, (j : ℤ) ≠ default ∧ s.2[j]? = some alabel then
    throw .duplicateLabelValue
  else return (default, s.2 ++ [alabel])

/-- The constructor for `create_union_tc`. -/
def create (memory : Discriminator) (discrim : DiscriminatorType) (members : List Label) :
    Except UnionExn TypeCodeUnion :=
  if members.length = 0 then .error .invalidInitialSize
  else do
    let (default, labels) ← members.foldlM (addMember discrim) (implicitDefault, [])
    let default ← classify discrim default labels.length
    return ⟨discrim, labels, default, false, memory⟩

/-- The constructor for `PR_union_tc`. -/
def stub (memory : Discriminator) (discrim : DiscriminatorType) (labels : List Discriminator)
    (deflt : BitVec 32) : Except UnionExn TypeCodeUnion := do
  let default := if deflt.toInt < 0 then implicitDefault else deflt.toInt
  let default ← classify discrim default labels.length
  return ⟨discrim, labels, default, false, memory⟩

/-- The default of a union that has been read, before its members are. -/
def readDefault (discrim : DiscriminatorType) (deflt : BitVec 32) : Except UnionExn ℤ :=
  if deflt.toInt < 0 then do
    if ← hasImplicitDefault discrim deflt.toInt 0 then return implicitDefault else return noDefault
  else .ok deflt.toInt

/-- `NP_unmarshalComplexParams`. -/
def unmarshal (memory : Discriminator) (discrim : DiscriminatorType) (deflt : BitVec 32)
    (words : List (BitVec 64)) : Except UnionExn TypeCodeUnion := do
  let default ← readDefault discrim deflt
  let labels ← words.mapM (unmarshalLabel discrim)
  return ⟨discrim, labels, default, false, memory⟩

/-- The loop of `NP_index_from_discriminator`, for the members from `i` on. -/
def indexFrom (default : ℤ) (d : Discriminator) (i : ℕ) : List Discriminator → ℤ
  | [] => if 0 ≤ default then default else -1
  | l :: ls => if l = d ∧ (i : ℤ) ≠ default then i else indexFrom default d (i + 1) ls

def indexFromDiscriminator (u : TypeCodeUnion) (d : Discriminator) : ℤ := indexFrom u.default d 0 u.labels

/-- The exit of each search loop. -/
def LeadsToDefault (u : TypeCodeUnion) (d : Discriminator) : Prop :=
  u.indexFromDiscriminator d < 0 ∨ u.indexFromDiscriminator d = u.default

instance (u : TypeCodeUnion) : DecidablePred u.LeadsToDefault :=
  fun _ => inferInstanceAs (Decidable (_ ∨ _))

/-- A search loop over the values of its counter that are left. Where the counter of a type with a sign
runs over, the loop has no meaning; where the others come round, it goes on for ever. -/
def search (u : TypeCodeUnion) (start : ℤ) (left : ℕ) : Option ℤ :=
  firstFrom (fun c => u.LeadsToDefault (BitVec.ofInt 64 c)) start left

/-- The value that `NP_default_value` calculates. -/
def calculateDefault (u : TypeCodeUnion) : Option Discriminator :=
  match u.discrim with
  -- `c - 1`, where `c` is an unsigned short that has been increased.
  | .char => (u.search 0 65536).map fun c => BitVec.ofInt 64 ((c + 1) % 65536 - 1)
  | .boolean => some (if u.LeadsToDefault 0 then 0 else 1)
  | .short => (u.search (-0x7fff) (2 ^ 31 - 1 + 0x7fff)).map (BitVec.ofInt 64)
  | .long => (u.search (-0x7fffffff) (2 ^ 32 - 2)).map (BitVec.ofInt 64)
  | .ushort | .ulong | .enum _ _ => (u.search 0 (2 ^ 32)).map (BitVec.ofInt 64)
  | _ => some u.defaultValue

/-- `NP_default_value`; nothing if it does not return. -/
def getDefaultValue (u : TypeCodeUnion) : Option (Except UnionExn Discriminator × TypeCodeUnion) :=
  if u.default = noDefault then some (.error .fatal, u)
  else if u.haveCalculatedDefaultValue then some (.ok u.defaultValue, u)
  else u.calculateDefault.map fun d =>
    (.ok d, { u with haveCalculatedDefaultValue := true, defaultValue := d })

end TypeCodeUnion

/-- The ways a union TypeCode is made. -/
inductive Construction where
  | stub (discrim : DiscriminatorType) (labels : List Discriminator) (deflt : BitVec 32)
  | create (discrim : DiscriminatorType) (members : List Label)
  | unmarshal (discrim : DiscriminatorType) (deflt : BitVec 32) (words : List (BitVec 64))

def Construction.build (memory : Discriminator) : Construction → Except UnionExn TypeCodeUnion
  | stub discrim labels deflt => TypeCodeUnion.stub memory discrim labels deflt
  | create discrim members => TypeCodeUnion.create memory discrim members
  | unmarshal discrim deflt words => TypeCodeUnion.unmarshal memory discrim deflt words

end TypeCodes

end OmniORB
