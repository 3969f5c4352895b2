import OmniORB.Library.Comparison
import OmniORB.TypeCodes.Unions

/-!
# TypeCodes and their comparison

TypeCodes as the nodes of a graph, since they may contain themselves, and `equal` and `equivalent` on
them.
-/

namespace OmniORB

open Library

namespace TypeCodes

/-- The kinds without parameters. -/
inductive SimpleKind where
  | null
  | void
  | short
  | long
  | ushort
  | ulong
  | float
  | double
  | boolean
  | char
  | octet
  | any
  | typeCode
  | principal
  | longlong
  | ulonglong
  | longdouble
  | wchar
deriving DecidableEq

inductive InterfaceKind where
  | objref
  | abstractInterface
  | localInterface
deriving DecidableEq

variable {ν μ : Type}

structure Member (ν : Type) where
  name : String
  type : ν
deriving DecidableEq

structure UnionMember (ν : Type) where
  name : String
  label : Discriminator
  type : ν
deriving DecidableEq

structure ValueMember (ν : Type) where
  name : String
  type : ν
  access : ℤ
deriving DecidableEq

/-- A TypeCode, where `ν` names the TypeCodes. `indirect` is the place of a recursive TypeCode. -/
inductive TypeCode (ν : Type) where
  | simple (kind : SimpleKind)
  | string (length : ℕ)
  | wstring (length : ℕ)
  | fixed (digits : ℕ) (scale : ℤ)
  | objref (kind : InterfaceKind) (id name : String)
  | alias (id name : String) (content : ν)
  | sequence (length : ℕ) (content : ν)
  | array (length : ℕ) (content : ν)
  | struct (id name : String) (members : List (Member ν))
  | except (id name : String) (members : List (Member ν))
  | enum (id name : String) (members : List String)
  | union (id name : String) (discrim : ν) (default : ℤ) (members : List (UnionMember ν))
  | value (id name : String) (modifier : ℤ) (base : ν) (members : List (ValueMember ν))
  | valueBox (id name : String) (boxed : ν)
  | indirect (resolved : ν)
deriving DecidableEq

/-- `CORBA::Object::_PD_repoId`. -/
def objectRepoId : String := "IDL:omg.org/CORBA/Object:1.0"

namespace TypeCode

/-- The comparison of corresponding members. -/
def memberParts {β : Type} (f : β → β → List (Obligation ν)) (members members' : List β) : List (Obligation ν) :=
  (members.zip members').flatMap fun m => f m.1 m.2

/-- `NP_extendedEqual`, whose arguments have no aliases in front if it is for `equivalent`. -/
def extendedEqual (isEquivalent : Bool) : TypeCode ν → TypeCode ν → List (Obligation ν)
  | simple kind, simple kind' => [.check (kind = kind')]
  | string length, string length' => [.check (length = length')]
  | wstring length, wstring length' => [.check (length = length')]
  | fixed digits scale, fixed digits' scale' => [.check (digits = digits'), .check (scale = scale')]
  | objref kind id name, objref kind' id' name' =>
    if isEquivalent then
      [.check (kind = kind'),
        .check (id = id' ∨ id = "" ∧ id' = objectRepoId ∨ id' = "" ∧ id = objectRepoId)]
    -- Different ids make no difference here.
    else [.check (kind = kind'), .check (name = name')]
  | .alias id _ content, .alias id' _ content' =>
    -- The ids are never null.
    if isEquivalent then [.check (id = id')] else [.check (id = id'), .pair content content']
  | sequence length content, sequence length' content' =>
    [.check (length = length'), .pair content content']
  | array length content, array length' content' => [.check (length = length'), .pair content content']
  | struct id name members, struct id' name' members' =>
    if isEquivalent then [.check (id = id')]
    else
      [.check (id = id'), .check (members.length = members'.length), .check (name = name')] ++
        memberParts (fun m m' => [.check (m.name = m'.name), .pair m.type m'.type]) members members'
  | except id name members, except id' name' members' =>
    if isEquivalent then [.check (id = id')]
    else
      [.check (id = id'), .check (members.length = members'.length), .check (name = name')] ++
        memberParts (fun m m' => [.check (m.name = m'.name), .pair m.type m'.type]) members members'
  | enum id name members, enum id' name' members' =>
    if isEquivalent then [.check (id = id')]
    else
      [.check (id = id'), .check (members.length = members'.length), .check (name = name')] ++
        memberParts (fun m m' => [.check (m = m')]) members members'
  | union id name discrim default members, union id' name' discrim' default' members' =>
    if isEquivalent then [.check (id = id')]
    else
      [.check (id = id'), .check (name = name'), .check (members.length = members'.length),
        .check (default = default' ∨ ¬ (0 ≤ default ∨ 0 ≤ default')), .pair discrim discrim'] ++
        memberParts (fun m m' => [.check ((m.2 : ℤ) = default ∨ m.1.label = m'.1.label),
          .pair m.1.type m'.1.type, .check (m.1.name = m'.1.name)]) members.zipIdx members'.zipIdx
  | value id name modifier base members, value id' name' modifier' base' members' =>
    if isEquivalent then [.check (id = id')]
    else
      [.check (id = id'), .check (modifier = modifier'), .check (members.length = members'.length),
        .check (name = name')] ++
        memberParts (fun m m' => [.check (m.access = m'.access), .check (m.name = m'.name),
          .pair m.type m'.type]) members members' ++ [.pair base base']
  | valueBox id _ boxed, valueBox id' _ boxed' =>
    if isEquivalent then [.check (id = id')] else [.check (id = id'), .pair boxed boxed']
  | _, _ => [.check false]

end TypeCode

/-- TypeCodes by their names. What a recursive TypeCode is resolved to is no such place itself. -/
structure Graph (ν : Type) where
  node : ν → TypeCode ν
  resolved : ∀ x y z, node x = .indirect y → node y ≠ .indirect z

namespace Graph

variable (g : Graph ν)

/-- `TypeCode_indirect::strip`. -/
def strip (x : ν) : ν :=
  match g.node x with
  | .indirect y => y
  | _ => x

/-- `NP_expand`, with fuel. -/
def expand : ℕ → ν → Option ν
  | 0, _ => none
  | n + 1, x =>
    match g.node x with
    | .alias _ _ content => expand n content
    | .indirect y => expand n y
    | _ => some x

attribute [local instance] Library.lawfulBEq_pair

/-- `NP_equal`, with fuel; `tcpl` are the pairs that are being compared. -/
def npEqual [DecidableEq ν] (isEquivalent : Bool) : ℕ → List (ν × ν) → ν → ν → Option Bool
  | 0, _, _, _ => none
  | n + 1, tcpl, x, y =>
    let x := g.strip x
    let y := g.strip y
    if x = y then some true
    else if (x, y) ∈ tcpl then some true
    else if isEquivalent then do
      let x' ← g.expand n x
      let y' ← g.expand n y
      holdAll (npEqual isEquivalent n ((x, y) :: tcpl)) ((g.node x').extendedEqual true (g.node y'))
    else
      holdAll (npEqual isEquivalent n ((x, y) :: tcpl)) ((g.node x).extendedEqual false (g.node y))

/-- `CORBA::TypeCode::equal`, with fuel. -/
def equal [DecidableEq ν] (n : ℕ) (x y : ν) : Option Bool := g.npEqual false n [] x y

/-- `CORBA::TypeCode::equivalent`, with fuel. -/
def equivalent [DecidableEq ν] (n : ℕ) (x y : ν) : Option Bool := g.npEqual true n [] x y

end Graph

end TypeCodes

end OmniORB
