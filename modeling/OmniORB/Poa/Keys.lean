import OmniORB.Library.BinarySearch
import OmniORB.Uri.Names

/-!
# Object keys of POAs

The constructor of `omniOrbPOA`, `getAdapter`, `create_key`, `create_new_key` and the size checks of
`dispatch`, of `poa.cc`. A `char` is an octet, and may be signed. Sizes are whole numbers.
-/

namespace OmniORB

open Library

/-! ### Names -/

/-- `POA_NAME_SEP` -/
def poaNameSep : UInt8 := 0xff

/-- `TRANSIENT_SUFFIX_SEP` -/
def transientSuffixSep : UInt8 := 0xfe

/-- `TRANSIENT_SUFFIX_SIZE` -/
def transientSuffixSize : ℕ := 8

/-- `SYS_ASSIGNED_ID_SIZE` -/
def sysAssignedIdSize : ℕ := 4

/-- What ends a name in a key. -/
def endsName (c : UInt8) : Bool := c = 0 || c = poaNameSep || c = transientSuffixSep

/-- `adapter_name_is_valid`. The octets of a C string are not NUL. -/
def adapterNameIsValid (name : CString) : Bool :=
  name.octets.all fun c => !(c = poaNameSep || c = transientSuffixSep)

/-- The value of a `char`. -/
def charValue (isSigned : Bool) (c : UInt8) : ℤ :=
  if isSigned ∧ 128 ≤ c.toNat then (c.toNat : ℤ) - 256 else c.toNat

/-- Compare strings of which the terminators are not listed, at the first difference. -/
def compareStrings (value : UInt8 → ℤ) : List UInt8 → List UInt8 → ℤ
  | x :: a, y :: b => if x = y then compareStrings value a b else value x - value y
  | x :: _, [] => value x - 0
  | [], y :: _ => 0 - value y
  | [], [] => 0

/-- `strcmp` compares `unsigned char`s. -/
def strcmp : List UInt8 → List UInt8 → ℤ := compareStrings (charValue false)

/-- `tstrcmp` compares `char`s. -/
def tstrcmp (isSigned : Bool) : List UInt8 → List UInt8 → ℤ := compareStrings (charValue isSigned)

/-! ### POAs -/

/-- The policies that the keys depend on. -/
structure PoaPolicies where
  transient : Bool
  userAssignedId : Bool
  deriving DecidableEq, Repr

/-- What `generateUniqueId` writes. -/
structure UniqueId where
  octets : List UInt8
  size : octets.length = transientSuffixSize
  deriving DecidableEq

/-- The part of `omniOrbPOA` that the keys depend on. `poaId` are the `pd_poaIdSize` octets of
`pd_poaId`. -/
structure Poa where
  name : CString
  fullname : List UInt8
  poaId : List UInt8
  policy : PoaPolicies
  oidPrefix : Option (List UInt8)
  deriving DecidableEq

/-- The parent that the constructor is given: none for the root POA, and the value 1 for the INS
POA, whose parent is the root POA. -/
inductive PoaParent where
  | null
  | ins (theRootPOA : Poa)
  | poa (parent : Poa)

/-- The constructor of `omniOrbPOA`. -/
def omniOrbPOA (poaUniquePersistentSystemIds : Bool) (name : CString) (policies : PoaPolicies)
    (uid : UniqueId) : PoaParent → Poa
  | .ins root =>
    { name, fullname := root.fullname ++ poaNameSep :: name.octets, poaId := [], policy := policies,
      oidPrefix := none }
  | .poa parent =>
    let fullname := parent.fullname ++ poaNameSep :: name.octets
    { name, fullname
      poaId := fullname ++
        (if policies.transient then transientSuffixSep :: uid.octets else []) ++ [0]
      policy := policies
      oidPrefix :=
        if ¬policies.transient ∧ ¬policies.userAssignedId ∧ poaUniquePersistentSystemIds then
          some uid.octets
        else none }
  | .null =>
    { name, fullname := [], poaId := transientSuffixSep :: uid.octets ++ [0], policy := policies,
      oidPrefix := none }

/-- A POA and its `pd_children`. -/
inductive PoaTree where
  | node (poa : Poa) (dying adapterActivator : Bool) (children : List PoaTree)

namespace PoaTree

def poa : PoaTree → Poa
  | node p _ _ _ => p

def dying : PoaTree → Bool
  | node _ d _ _ => d

def adapterActivator : PoaTree → Bool
  | node _ _ a _ => a

def children : PoaTree → List PoaTree
  | node _ _ _ cs => cs

/-- `find_child(name_start, name_end)` -/
def findChild (isSigned : Bool) (t : PoaTree) (name : List UInt8) : Option PoaTree :=
  search (fun c => tstrcmp isSigned name c.poa.name.octets) t.children t.children.length 0
    t.children.length

/-- `insert_child`: the children afterwards. An assertion fails if there is a child of the name. -/
def insertChild (cs : List PoaTree) (child : PoaTree) : Option (List PoaTree) :=
  (insertionPoint (fun c => strcmp child.poa.name.octets c.poa.name.octets) cs cs.length 0
    cs.length).map fun k => cs.take k ++ child :: cs.drop k

end PoaTree

/-! ### Finding the adapter -/

/-- A system exception, a failed assertion, or an access outside an array. -/
inductive PoaExn where
  | system
  | objectNotExist
  | assertionFailure
  | overrun
  deriving DecidableEq, Repr

/-- Compare `n` octets of the key with those of `pd_poaId` from `t` on. What is left of the key, if
they are the same. -/
def matchSuffix (poaId : List UInt8) : ℕ → List UInt8 → ℤ → Except PoaExn (Option (List UInt8))
  | 0, k, _ => .ok (some k)
  | _ + 1, [], _ => .error .overrun
  | n + 1, c :: k, t =>
    if t < 0 ∨ poaId.length ≤ t then .error .overrun
    else if c ≠ poaId.getD t.toNat 0 then .ok none
    else matchSuffix poaId n k (t + 1)

/-- `if( *k ) return 0` -/
def checkNul (p : Poa) : List UInt8 → Except PoaExn (Option Poa)
  | [] => .error .overrun
  | c :: _ => .ok (if c ≠ 0 then none else some p)

/-- The end of `getAdapter`, at the rest `k` of the key. -/
def finishAdapter (p : Poa) : List UInt8 → Except PoaExn (Option Poa)
  | [] => .ok none
  | c :: k =>
    if c = transientSuffixSep then
      if k.length ≤ transientSuffixSize then .ok none
      else do
        match ← matchSuffix p.poaId transientSuffixSize k
            ((p.poaId.length : ℤ) - transientSuffixSize - 1) with
        | none => .ok none
        | some k => checkNul p k
    else checkNul p (c :: k)

lemma length_dropWhile_lt {q : UInt8 → Bool} {c : UInt8} {k : List UInt8} :
    (k.dropWhile q).length < (c :: k).length :=
  Nat.lt_succ_of_le (List.dropWhile_sublist q).length_le

/-- The loop of `getAdapter`. `activate` is `attempt_to_activate_adapter`. -/
def walk (isSigned : Bool) (activate : Poa → List UInt8 → Except PoaExn (Option PoaTree))
    (t : PoaTree) : List UInt8 → Except PoaExn (Option Poa)
  | [] => finishAdapter t.poa []
  | c :: k =>
    if c = poaNameSep then
      let name := k.takeWhile fun c => !endsName c
      if k.dropWhile (fun c => !endsName c) = [] then .ok none
      else
        match (t.findChild isSigned name).filter (!·.dying) with
        | some child => walk isSigned activate child (k.dropWhile fun c => !endsName c)
        | none =>
          if t.adapterActivator then do
            match ← activate t.poa name with
            | none => .ok none
            | some child => walk isSigned activate child (k.dropWhile fun c => !endsName c)
          else .ok none
    else finishAdapter t.poa (c :: k)
termination_by k => k.length
decreasing_by all_goals exact length_dropWhile_lt

/-- `omniOrbPOA::getAdapter` -/
def getAdapter (isSigned : Bool) (activate : Poa → List UInt8 → Except PoaExn (Option PoaTree))
    (theRootPOA : Option PoaTree) (key : List UInt8) : Except PoaExn (Option Poa) :=
  match theRootPOA with
  | none => .ok none
  | some t => walk isSigned activate t key

/-! ### Making keys -/

/-- `create_key` -/
def createKey (p : Poa) (id : List UInt8) : List UInt8 := p.poaId ++ id

/-- The octets of the index, most significant first. -/
def indexOctets (i : UInt32) : List UInt8 :=
  [(i >>> 24).toUInt8, (i >>> 16).toUInt8, (i >>> 8).toUInt8, i.toUInt8]

/-- `create_new_key`, with `pd_oidIndex`: the key and the object id in it, and `pd_oidIndex`
afterwards. -/
def createNewKey (poaUniquePersistentSystemIds : Bool) (p : Poa) (oidIndex : UInt32) :
    Except PoaExn (List UInt8 × List UInt8 × UInt32) :=
  if ¬p.policy.transient ∧ poaUniquePersistentSystemIds then
    match p.oidPrefix with
    | none => .error .overrun
    | some oidPrefix =>
      .ok (p.poaId ++ oidPrefix ++ indexOctets oidIndex, oidPrefix ++ indexOctets oidIndex,
        oidIndex + 1)
  else .ok (p.poaId ++ indexOctets oidIndex, indexOctets oidIndex, oidIndex + 1)

/-- The checks of the size of the key in `dispatch`. -/
def checkKeySize (poaUniquePersistentSystemIds : Bool) (p : Poa) (key : List UInt8) :
    Except PoaExn Unit :=
  if key.length < p.poaId.length then .error .assertionFailure
  else if ¬p.policy.userAssignedId ∧ key.length - p.poaId.length ≠
      (if ¬p.policy.transient ∧ poaUniquePersistentSystemIds then
        sysAssignedIdSize + transientSuffixSize else sysAssignedIdSize) then .error .objectNotExist
  else .ok ()

end OmniORB
