import Mathlib

/-!
# Interfaces and valuetypes

The declarations of interfaces and valuetypes in the front end of the IDL compiler, with their
inheritance specifications: `InheritSpec`, `Interface`, `ValueInheritSpec`, `ValueAbs` and `Value` of
`idlast.cc`. What is declared is named by its place in the order of the declarations, and a name is
taken as what it denotes behind its typedefs. A declaration in which an error is reported ends the
run.
-/

namespace OmniORB.Idl

/-! ### Declarations -/

structure Interface where
  isAbstract : Bool
  isLocal : Bool
  inherits : List ℕ
  deriving DecidableEq

structure ValueInheritSpec where
  value : ℕ
  truncatable : Bool
  deriving DecidableEq

/-- `Value`, or `ValueAbs` if it is abstract. -/
structure Valuetype where
  isAbstract : Bool
  custom : Bool
  inherits : List ValueInheritSpec
  supports : List ℕ
  deriving DecidableEq

/-- `Forward` -/
structure Forward where
  isAbstract : Bool
  isLocal : Bool
  definition : Option ℕ
  deriving DecidableEq

structure ValueForward where
  isAbstract : Bool
  definition : Option ℕ
  deriving DecidableEq

/-- What is declared. -/
structure Ast where
  interfaces : List Interface
  forwards : List Forward
  values : List Valuetype
  valueForwards : List ValueForward
  deriving DecidableEq

/-- What a name in a list of interfaces denotes. -/
inductive InterfaceName where
  | object
  | interface (i : ℕ)
  | forward (f : ℕ)
  | other
  deriving DecidableEq

/-- What a name in a list of valuetypes denotes. -/
inductive ValueName where
  | value (v : ℕ)
  | forward (f : ℕ)
  | other
  deriving DecidableEq

inductive InheritError where
  | inheritsObject
  | notFound
  | notDefined
  | notInterface
  | interfaceTwice (i : ℕ)
  | notValuetype
  | valueTwice (v : ℕ)
  | forwardAbstract
  | forwardLocal
  | interfaceNotAbstract (i : ℕ)
  | interfaceLocal (i : ℕ)
  | valueNotAbstract (v : ℕ)
  | truncatableCustom
  | baseCustom (v : ℕ)
  | valueNotFirst (v : ℕ)
  | supportNotFirst (i : ℕ)
  | notDerived (i base : ℕ) (indirectly : Bool) (v : ℕ)
  | clash (i j : ℕ)

namespace Ast

variable (ast : Ast)

/-- `Interface::abstract` -/
def isAbstract (i : ℕ) : Bool := (ast.interfaces[i]?.map Interface.isAbstract).getD false

def isLocal (i : ℕ) : Bool := (ast.interfaces[i]?.map Interface.isLocal).getD false

/-- The valuetype is a `D_VALUE`. -/
def isValue (v : ℕ) : Bool := (ast.values[v]?.map fun d => !d.isAbstract).getD false

def custom (v : ℕ) : Bool := (ast.values[v]?.map Valuetype.custom).getD false

/-! ### Inheritance specifications -/

/-- `InheritSpec::InheritSpec` -/
def inheritSpec : InterfaceName → Except (List InheritError) ℕ
  | .object => .error [.inheritsObject]
  | .interface i => if i < ast.interfaces.length then .ok i else .error [.notFound]
  | .forward f =>
    match ast.forwards[f]? with
    | some d =>
      match d.definition with
      | some i => .ok i
      | none => .error [.notDefined]
    | none => .error [.notFound]
  | .other => .error [.notInterface]

/-- A list of interfaces, which `InheritSpec::append` builds. -/
def inheritList (names : List InterfaceName) : Except (List InheritError) (List ℕ) :=
  names.foldlM (fun list name => do
    let i ← ast.inheritSpec name
    if i ∈ list then .error [.interfaceTwice i] else .ok (list ++ [i])) []

/-- `ValueInheritSpec::ValueInheritSpec` -/
def valueInheritSpec : ValueName → Except (List InheritError) ℕ
  | .value v => if v < ast.values.length then .ok v else .error [.notFound]
  | .forward f =>
    match ast.valueForwards[f]? with
    | some d =>
      match d.definition with
      | some v => .ok v
      | none => .error [.notDefined]
    | none => .error [.notFound]
  | .other => .error [.notValuetype]

/-- A list of valuetypes, which `ValueInheritSpec::append` builds. -/
def valueInheritList (names : List ValueName) : Except (List InheritError) (List ℕ) :=
  names.foldlM (fun list name => do
    let v ← ast.valueInheritSpec name
    if v ∈ list then .error [.valueTwice v] else .ok (list ++ [v])) []

/-- `setTruncatable` on the first of the list. -/
def truncate (truncatable : Bool) : List ℕ → List ValueInheritSpec
  | [] => []
  | v :: list => ⟨v, truncatable⟩ :: list.map fun w => ⟨w, false⟩

/-! ### Interfaces -/

/-- The loop of `Interface::isDerived` over the bases. -/
def anyDerived (derived : ℕ → Option Bool) (base : ℕ) : List ℕ → Option Bool
  | [] => some false
  | i :: list =>
    if i = base then some true
    else
      match derived i with
      | none => none
      | some true => some true
      | some false => anyDerived derived base list

/-- `Interface::isDerived`, for some depth of the calls. -/
def isDerived : ℕ → ℕ → ℕ → Option Bool
  | 0, _, _ => none
  | depth + 1, this, base =>
    if base = this then some true
    else
      match ast.interfaces[this]? with
      | some d => anyDerived (fun i => isDerived depth i base) base d.inherits
      | none => some false

/-- What `Interface::Interface` reports about its forward declaration. -/
def forwardErrors (fwd : Option ℕ) (isAbstract isLocal : Bool) : List InheritError :=
  match fwd.bind (ast.forwards[·]?) with
  | some f =>
    (if isAbstract ≠ f.isAbstract then [.forwardAbstract] else []) ++
      (if isLocal ≠ f.isLocal then [.forwardLocal] else [])
  | none => []

/-- What `Interface::Interface` reports about its bases. -/
def interfaceErrors (isAbstract isLocal : Bool) (inherits : List ℕ) : List InheritError :=
  if isAbstract then (inherits.filter fun i => !ast.isAbstract i).map .interfaceNotAbstract
  else if isLocal then []
  else (inherits.filter ast.isLocal).map .interfaceLocal

/-- `Forward::setDefinition` -/
def defineForward (fwd : Option ℕ) (i : ℕ) : List Forward :=
  match fwd with
  | some f => ast.forwards.modify f fun d => { d with definition := some i }
  | none => ast.forwards

/-- `Interface::Interface` -/
def declareInterface (fwd : Option ℕ) (isAbstract isLocal : Bool) (names : List InterfaceName) :
    Except (List InheritError) Ast := do
  let inherits ← ast.inheritList names
  let errors := ast.forwardErrors fwd isAbstract isLocal ++
    ast.interfaceErrors isAbstract isLocal inherits
  if errors = [] then
    .ok { ast with
      interfaces := ast.interfaces ++ [⟨isAbstract, isLocal, inherits⟩]
      forwards := ast.defineForward fwd ast.interfaces.length }
  else .error errors

/-! ### Valuetypes -/

/-- What `ValueAbs::ValueAbs` and `Value::Value` report about a forward declaration. -/
def valueForwardErrors (fwd : Option ℕ) (isAbstract : Bool) : List InheritError :=
  match fwd.bind (ast.valueForwards[·]?) with
  | some f => if isAbstract ≠ f.isAbstract then [.forwardAbstract] else []
  | none => []

/-- `ValueForward::setDefinition` -/
def defineValueForward (fwd : Option ℕ) (v : ℕ) : List ValueForward :=
  match fwd with
  | some f => ast.valueForwards.modify f fun d => { d with definition := some v }
  | none => ast.valueForwards

/-- What is reported about the supported interfaces after the first. -/
def supportErrors (supports : List ℕ) : List InheritError :=
  (supports.tail.filter fun i => !ast.isAbstract i).map .supportNotFirst

/-- The loop that climbs the base valuetypes, for some steps: the first interface of `baseis`, and
`iv`. The loop goes on as long as there is no `baseis`, whether or not `iv` has moved. -/
def climb : ℕ → ℕ → Option (Option ℕ × ℕ)
  | 0, _ => none
  | steps + 1, iv =>
    match ast.values[iv]? with
    | none => none
    | some d =>
      match d.supports, d.inherits with
      | [], [] => some (none, iv)
      | [], parent :: _ => climb steps parent.value
      | i :: _, [] => some (some i, iv)
      | i :: _, parent :: _ => some (some i, if ast.isAbstract i then parent.value else iv)

/-- The check of one base against the interface that the valuetype supports. -/
def derivedErrors (steps thisi : ℕ) (vinh : ValueInheritSpec) : Option (List InheritError) :=
  match ast.climb steps vinh.value with
  | none => none
  | some (none, _) => some []
  | some (some base, iv) =>
    if ast.isAbstract base then some []
    else
      match ast.isDerived steps thisi base with
      | none => none
      | some true => some []
      | some false => some [.notDerived thisi base (iv ≠ vinh.value) vinh.value]

/-- The loop over the bases of a valuetype that supports nothing, with `ii`. -/
def clashErrors (steps : ℕ) :
    Option ℕ → List ValueInheritSpec → Option (List InheritError)
  | _, [] => some []
  | ii, vinh :: list =>
    match ast.climb steps vinh.value with
    | none => none
    | some (none, _) => clashErrors steps ii list
    | some (some base, _) =>
      if ast.isAbstract base then clashErrors steps ii list
      else
        match ii with
        | none => clashErrors steps (some base) list
        | some i =>
          (clashErrors steps (some i) list).map fun errors =>
            (if base ≠ i then [.clash i base] else []) ++ errors

/-- What `Value::Value` reports about the bases. -/
def inheritErrors (custom : Bool) : List ValueInheritSpec → List InheritError
  | [] => []
  | first :: list =>
    (if custom then if first.truncatable then [.truncatableCustom] else []
      else if ast.isValue first.value ∧ ast.custom first.value then [.baseCustom first.value]
      else []) ++
      (list.filter fun vinh => ast.isValue vinh.value).map fun vinh => .valueNotFirst vinh.value

/-- What `Value::Value` reports about the interfaces that the bases support. -/
def conflictErrors (steps : ℕ) (inherits : List ValueInheritSpec) :
    List ℕ → Option (List InheritError)
  | [] => ast.clashErrors steps none inherits
  | thisi :: _ =>
    if ast.isAbstract thisi then some []
    else (inherits.mapM (ast.derivedErrors steps thisi)).map List.flatten

/-- The valuetype becomes known if nothing is reported. -/
def addValue (fwd : Option ℕ) (d : Valuetype) (errors : List InheritError) :
    Except (List InheritError) Ast :=
  if errors = [] then
    .ok { ast with
      values := ast.values ++ [d]
      valueForwards := ast.defineValueForward fwd ast.values.length }
  else .error errors

/-- `ValueAbs::ValueAbs` -/
def declareValueAbs (fwd : Option ℕ) (inherits : List ValueInheritSpec) (supports : List ℕ) :
    Except (List InheritError) Ast :=
  ast.addValue fwd ⟨true, false, inherits, supports⟩
    (ast.valueForwardErrors fwd true ++
      (inherits.filter fun vinh => ast.isValue vinh.value).map (fun vinh =>
        .valueNotAbstract vinh.value) ++
      ast.supportErrors supports)

/-- `Value::Value` -/
def declareValue (steps : ℕ) (fwd : Option ℕ) (custom : Bool) (inherits : List ValueInheritSpec)
    (supports : List ℕ) : Option (Except (List InheritError) Ast) :=
  (ast.conflictErrors steps inherits supports).map fun conflicts =>
    ast.addValue fwd ⟨false, custom, inherits, supports⟩
      (ast.valueForwardErrors fwd false ++ ast.inheritErrors custom inherits ++
        ast.supportErrors supports ++ conflicts)

end Ast

/-! ### Runs -/

/-- What the grammar declares. A definition knows the forward declaration of its name in the
scope. -/
inductive Declaration where
  | forward (isAbstract isLocal : Bool)
  | interface (fwd : Option ℕ) (isAbstract isLocal : Bool) (inherits : List InterfaceName)
  | valueForward (isAbstract : Bool)
  | valueAbs (fwd : Option ℕ) (truncatable : Bool) (inherits : List ValueName)
      (supports : List InterfaceName)
  | value (fwd : Option ℕ) (custom truncatable : Bool) (inherits : List ValueName)
      (supports : List InterfaceName)

/-- The lists of a valuetype. -/
def Ast.valueLists (ast : Ast) (truncatable : Bool) (inherits : List ValueName)
    (supports : List InterfaceName) :
    Except (List InheritError) (List ValueInheritSpec × List ℕ) := do
  let values ← ast.valueInheritList inherits
  let interfaces ← ast.inheritList supports
  .ok (Ast.truncate truncatable values, interfaces)

/-- One declaration, with so many steps for its loops. -/
def Ast.declare (ast : Ast) (steps : ℕ) : Declaration → Option (Except (List InheritError) Ast)
  | .forward isAbstract isLocal =>
    some (.ok { ast with forwards := ast.forwards ++ [⟨isAbstract, isLocal, none⟩] })
  | .interface fwd isAbstract isLocal inherits =>
    some (ast.declareInterface fwd isAbstract isLocal inherits)
  | .valueForward isAbstract =>
    some (.ok { ast with valueForwards := ast.valueForwards ++ [⟨isAbstract, none⟩] })
  | .valueAbs fwd truncatable inherits supports =>
    match ast.valueLists truncatable inherits supports with
    | .error e => some (.error e)
    | .ok lists => some (ast.declareValueAbs fwd lists.1 lists.2)
  | .value fwd custom truncatable inherits supports =>
    match ast.valueLists truncatable inherits supports with
    | .error e => some (.error e)
    | .ok lists => ast.declareValue steps fwd custom lists.1 lists.2

end OmniORB.Idl
