import OmniORB.Idl.Expressions
import OmniORB.Library.Walk

/-!
# Case labels of unions

The labels of a union in the front end of the IDL compiler: `CaseLabel::setType`, the macro
`UNION_SWITCH` and `Union::finishConstruction`, as in `idlast.cc`. The values of a switch type are
integers, or enumerators; a boolean is 0 or 1.
-/

namespace OmniORB.Idl

open Library

/-! ### Types and values -/

/-- An enum, which has at least one enumerator. -/
structure Enum where
  name : ℕ
  count : ℕ
  pos : 0 < count
  deriving DecidableEq, Repr

/-- An enumerator with its place in its enum. -/
structure Enumerator where
  container : Enum
  index : ℕ
  lt : index < container.count
  deriving DecidableEq, Repr

/-- The member of `CaseLabel::v_` that is set. An enumerator may be null. -/
inductive LabelValue where
  | integer (z : ℤ)
  | enumerator (e : Option Enumerator)
  deriving DecidableEq, Repr

/-- A type in the place of a switch type. A typedef may be one of an array, or have been left without its
type by an earlier error. -/
inductive SwitchType where
  | integer (t : Target)
  | boolean
  | char
  | wchar
  | enum (e : Enum)
  | other (kind : String)
  | alias (t : SwitchType)
  | arrayAlias
  | brokenAlias
  deriving DecidableEq

/-- `IdlType::unalias` -/
def SwitchType.unalias : SwitchType → Option SwitchType
  | .alias t => t.unalias
  | .brokenAlias => none
  | t => some t

/-! ### Labels -/

/-- The expression of a label: an integer expression, a literal or a constant of another type, an
expression of no type that labels have, or `DummyExpr`, which stands in after an error. -/
inductive LabelExpr where
  | integer (e : IdlExpr)
  | boolean (b : Bool)
  | char (c : UInt8)
  | wchar (c : UInt16)
  | enumerator (e : Enumerator)
  | other
  | dummy
  deriving DecidableEq

namespace LabelExpr

/-- The value 1 that `evalAsLongV` and `evalAsLongLongV` give for all that is no integer. -/
def standIn (t : Target) (error : Bool) : ℤ × Bool :=
  let (r, range) := t.convert (.ofULong t.mode 1)
  (r, error || range)

/-- `evalAsShort` to `evalAsULongLong`, with whether an error is reported. -/
def evalAsInteger (t : Target) : LabelExpr → Option (ℤ × Bool)
  | integer e => e.evalAs t
  | dummy => some (standIn t false)
  | _ => some (standIn t true)

def evalAsBoolean : LabelExpr → ℤ × Bool
  | boolean b => (if b then 1 else 0, false)
  | dummy => (0, false)
  | _ => (0, true)

def evalAsChar : LabelExpr → ℤ × Bool
  | char c => (c.toNat, false)
  | dummy => (33, false)
  | _ => (33, true)

def evalAsWChar : LabelExpr → ℤ × Bool
  | wchar c => (c.toNat, false)
  | dummy => (33, false)
  | _ => (33, true)

def evalAsEnumerator (target : Enum) : LabelExpr → Option Enumerator × Bool
  | enumerator e => (some e, e.container ≠ target)
  | dummy => (none, false)
  | _ => (none, true)

end LabelExpr

/-! ### The macro `UNION_SWITCH` -/

/-- The arguments of the macro, with the evaluation of `setType` for the kind. -/
structure UnionSwitch where
  eval : LabelExpr → Option (LabelValue × Bool)
  defstart : LabelValue
  islastdef : LabelValue → Bool
  nextdef : LabelValue → LabelValue

/-- A switch on integers, booleans or characters. -/
def UnionSwitch.onIntegers (eval : LabelExpr → Option (ℤ × Bool)) (defstart : ℤ) (islastdef : ℤ → Bool)
    (nextdef : ℤ → ℤ) : UnionSwitch where
  eval e := (eval e).map fun r => (.integer r.1, r.2)
  defstart := .integer defstart
  islastdef
    | .integer z => islastdef z
    | .enumerator _ => false
  nextdef
    | .integer z => .integer (nextdef z)
    | v => v

/-- The enumerator that follows in the list. -/
def Enumerator.next (e : Enumerator) : Option Enumerator :=
  if h : e.index + 1 < e.container.count then some ⟨e.container, e.index + 1, h⟩ else none

/-- A switch on the enumerators of an enum. -/
def UnionSwitch.onEnum (e : Enum) : UnionSwitch where
  eval x := some (.enumerator (x.evalAsEnumerator e).1, (x.evalAsEnumerator e).2)
  defstart := .enumerator (some ⟨e, 0, e.pos⟩)
  islastdef
    | .enumerator (some v) => v.next.isNone
    | _ => false
  nextdef
    | .enumerator (some v) => .enumerator v.next
    | v => v

open UnionSwitch LabelExpr in
/-- The switch types, and the way in which their values are tried. -/
def SwitchType.unionSwitch : SwitchType → Option UnionSwitch
  | .integer .short => some (onIntegers (evalAsInteger .short) (-0x8000) (· = 0x7fff) (· + 1))
  | .integer .long => some (onIntegers (evalAsInteger .long) (-0x7fffffff - 1) (· = 0x7fffffff) (· + 1))
  | .integer .ushort => some (onIntegers (evalAsInteger .ushort) 0xffff (· = 0) (· - 1))
  | .integer .ulong => some (onIntegers (evalAsInteger .ulong) 0xffffffff (· = 0) (· - 1))
  | .boolean => some (onIntegers (fun e => some e.evalAsBoolean) 0 (· = 1) fun _ => 1)
  | .char => some (onIntegers (fun e => some e.evalAsChar) 0xff (· = 0) (· - 1))
  | .integer .longlong =>
    some (onIntegers (evalAsInteger .longlong) (-0x7fffffffffffffff - 1) (· = 0x7fffffffffffffff) (· + 1))
  | .integer .ulonglong =>
    some (onIntegers (evalAsInteger .ulonglong) 0xffffffffffffffff (· = 0) (· - 1))
  | .wchar => some (onIntegers (fun e => some e.evalAsWChar) 0xffff (· = 0) (· - 1))
  | .enum e => some (onEnum e)
  | _ => none

/-- `kindAsString`, of the types that are no switch types. -/
def SwitchType.kindAsString : SwitchType → String
  | .integer _ => "octet"
  | .other kind => kind
  | _ => "typedef"

/-- A label after `setType`. The default label has no value. -/
abbrev CaseLabel := Option LabelValue

/-- `CaseLabel::setType`, with whether an error is reported. -/
def UnionSwitch.setType (sw : UnionSwitch) : Option LabelExpr → Option (CaseLabel × Bool)
  | none => some (none, false)
  | some e => (sw.eval e).map fun r => (some r.1, r.2)

/-- How often the label `l` is there among those before it. -/
def clashes (l : CaseLabel) (earlier : List CaseLabel) : ℕ :=
  earlier.countP fun m =>
    if l.isNone || m.isNone then l.isNone && m.isNone else m = l

/-- The labels of one case, after those of the cases before it and those of its own that are done. -/
def clashesInCase (before : List CaseLabel) : List CaseLabel → List CaseLabel → ℕ
  | _, [] => 0
  | own, l :: ls => clashes l (before ++ own) + clashesInCase before (own ++ [l]) ls

/-- `clash`: the labels of all cases, after those of the cases before. -/
def countClashes : List CaseLabel → List (List CaseLabel) → ℕ
  | _, [] => 0
  | before, c :: cs => clashesInCase before [] c + countClashes (before ++ c) cs

/-- A label has that value and is not the default label. -/
def isListed (labels : List (List CaseLabel)) (v : LabelValue) : Bool :=
  labels.any fun c => c.any fun l => l.any (· = v)

/-! ### `Union::finishConstruction` -/

/-- A case: its labels, of which `default` has no expression, and whether its type is local. -/
structure UnionCase where
  labels : List (Option LabelExpr)
  isLocal : Bool
  deriving DecidableEq

inductive UnionError where
  | invalidSwitch (kind : String)
  | repeatedLabels (clash : ℕ)
  | cannotDeclareDefault
  deriving DecidableEq, Repr

def UnionError.text (identifier : String) : UnionError → String
  | .invalidSwitch kind => "Invalid type for union switch: " ++ kind
  | .repeatedLabels clash =>
    "Error in union '" ++ identifier ++ "': " ++ toString clash ++ " repeated union label" ++
      if clash = 1 then "" else "s"
  | .cannotDeclareDefault =>
    "Error in union '" ++ identifier ++ "': cannot declare default case since all cases are explicitly listed"

/-- What `finishConstruction` leaves: the number of labels that were not evaluated without an error, the
other errors, the labels and the value of the default label, where they are set. -/
structure FinishedUnion where
  isLocal : Bool := false
  labelErrors : ℕ := 0
  errors : List UnionError := []
  labels : List (List CaseLabel) := []
  default : Option LabelValue := none
  deriving DecidableEq

/-- The labels of the cases after `setType`. -/
def UnionSwitch.setTypes (sw : UnionSwitch) (cases : List UnionCase) : Option (List (List (CaseLabel × Bool))) :=
  cases.mapM fun c => c.labels.mapM sw.setType

def repeatedErrors (clash : ℕ) : List UnionError := if clash ≠ 0 then [.repeatedLabels clash] else []

/-- The checks of the labels. The search for the default value takes at most `fuel` turns. -/
def UnionSwitch.check (sw : UnionSwitch) (fuel : ℕ) (labels : List (List CaseLabel)) :
    Option (List UnionError × Option LabelValue) := do
  let repeated := repeatedErrors (countClashes [] labels)
  if labels.any (·.any Option.isNone) then
    let (defVal, foundDef) ← walk (isListed labels) sw.islastdef sw.nextdef fuel sw.defstart
    return (repeated ++ if !foundDef then [.cannotDeclareDefault] else [], some defVal)
  else return (repeated, none)

/-- Nothing comes out where the host leaves undefined what a label is, or `fuel` turns are too few. -/
def finishConstruction (fuel : ℕ) (switchType : Option SwitchType) (cases : List UnionCase) :
    Option FinishedUnion :=
  match switchType with
  | none => some {}
  | some switchType =>
    let isLocal := cases.any UnionCase.isLocal
    match switchType.unalias with
    | none => some { isLocal }
    | some t =>
      match t.unionSwitch with
      | none => some { isLocal, errors := [.invalidSwitch t.kindAsString] }
      | some sw => do
        let set ← sw.setTypes cases
        let labels := set.map (·.map Prod.fst)
        let (errors, default) ← sw.check fuel labels
        return { isLocal, labelErrors := set.flatten.countP Prod.snd, errors, labels, default }

end OmniORB.Idl
