import OmniORB.Uri.Numbers

/-!
# Repository ids

The prefixes and repository ids of the front end of the IDL compiler, as in `idlrepoId.cc`, and the
actions of the grammar and the lexer that call them. A declaration is named by its place in the
order of the declarations. Where the source writes beyond its buffer, a function here has no result.
-/

namespace OmniORB.Idl

/-! ### Declarations -/

/-- `Decl::Kind`, of the declarations that have a repository id. -/
inductive DeclKind where
  | module
  | interface
  | forward
  | const
  | declarator
  | struct
  | structForward
  | exception
  | union
  | unionForward
  | enumerator
  | enum
  | operation
  | native
  | valueForward
  | valueBox
  | valueAbs
  | value
  deriving DecidableEq

namespace DeclKind

/-- The declaration opens a scope. -/
def opensScope : DeclKind → Bool
  | module | interface | struct | exception | union | valueAbs | value => true
  | _ => false

/-- A definition looks for a forward declaration of this kind. -/
def takesOver : DeclKind → DeclKind → Bool
  | interface, forward => true
  | struct, structForward => true
  | union, unionForward => true
  | valueForward, valueForward => true
  | valueAbs, valueForward => true
  | value, valueForward => true
  | _, _ => false

/-- The visitors `SetRepoIdVisitor` and `SetVersionVisitor` do something for the declaration: they
inherit empty methods for forward declarations of structs and unions. -/
def visited : DeclKind → Bool
  | structForward | unionForward => false
  | _ => true

end DeclKind

/-- What is reported with `IdlError`. -/
inductive Report where
  | unknownName
  | cannotSetId (k : ℕ) (repoId : List UInt8)
  | cannotSetVersion (k : ℕ) (maj min : ℤ)
  | notSettable (k : ℕ)
  | prefixDiffers (k : ℕ)

/-! ### Prefixes -/

structure Prefix where
  str : List UInt8
  isfile : Bool
  deriving DecidableEq

/-- An identifier without the underscore that escapes it. -/
def unescaped (identifier : List UInt8) : List UInt8 :=
  if peek identifier = 0x5f then identifier.drop 1 else identifier

/-- `Prefix::newScope` -/
def Prefix.newScope (current : Prefix) (name : List UInt8) : Prefix where
  str := (if current.str = [] then [] else current.str ++ [0x2f]) ++ unescaped name
  isfile := false

/-- `Prefix::newFile` -/
def Prefix.newFile : Prefix := ⟨[], true⟩

/-- `Prefix::endScope`, and `Prefix::endFile`, which only warns of more. -/
def endPrefix (prefixes : List Prefix) : List Prefix :=
  if 1 < prefixes.length then prefixes.tail else prefixes

/-! ### Repository ids -/

structure DeclRepoId where
  kind : DeclKind
  identifier : List UInt8
  scopePrefix : List UInt8
  set : Bool
  repoId : List UInt8
  maj : ℤ
  min : ℤ
  deriving DecidableEq

/-- A conversion to `IDL_Short`. -/
def toShort (z : ℤ) : ℤ := z.bmod (2 ^ 16)

/-- `%hd` in `sprintf`. -/
def shortText (z : ℤ) : List UInt8 :=
  (if z < 0 then [0x2d] else []) ++ decimal z.natAbs

/-- `DeclRepoId::genRepoId` -/
def genRepoId (scopePrefix identifier : List UInt8) (maj min : ℤ) : Option (List UInt8) :=
  let len := 4 + scopePrefix.length + 1 + identifier.length + 1 + 5 + 1 + 5 + 1
  let repoId := ascii "IDL:" ++ scopePrefix ++ (if scopePrefix = [] then [] else [0x2f]) ++
    identifier ++ 0x3a :: (shortText maj ++ 0x2e :: shortText min)
  if repoId.length + 1 ≤ len then some repoId else none

/-- `%hd` in `sscanf`: the number goes through a `long`. -/
def scanShort (c : List UInt8) : Option (ℤ × List UInt8) :=
  let p := c.dropWhile isSpace
  let digits := if peek p = 0x2d ∨ peek p = 0x2b then p.drop 1 else p
  if isDigit (peek digits) then
    let v : ℤ := numeralValue (digits.takeWhile isDigit)
    let v := if peek p = 0x2d then -v else v
    some (toShort (max (-2 ^ 63) (min v (2 ^ 63 - 1))), digits.dropWhile isDigit)
  else none

/-- `sscanf(c, "%hd.%hd", &maj_, &min_)`, where it gives 2. -/
def scanVersion (c : List UInt8) : Option (ℤ × ℤ) :=
  (scanShort c).bind fun a =>
    if peek a.2 = 0x2e then (scanShort (a.2.drop 1)).map fun b => (a.1, b.1) else none

/-- The version that `DeclRepoId::setRepoId` finds in an id. -/
def idVersion (repoId : List UInt8) (minor : ℤ) : ℤ × ℤ :=
  let c := (repoId.drop 4).dropWhile (· ≠ 0x3a)
  let r := (c.drop 1).dropWhile isDigit
  if 0x3a ∈ repoId ∧ startsWith (ascii "IDL:") repoId ∧ c ≠ [] then
    match scanVersion (c.drop 1) with
    | none => (-1, minor)
    | some v => if peek r = 0x2e ∧ (r.drop 1).dropWhile isDigit = [] then v else (-1, v.2)
  else (-1, minor)

/-- `DeclRepoId::setRepoId`, and whether it is refused. -/
def DeclRepoId.setRepoId (d : DeclRepoId) (repoId : List UInt8) : DeclRepoId × Bool :=
  if d.set then (d, repoId ≠ d.repoId)
  else
    ({ d with
        set := true
        repoId := repoId
        maj := (idVersion repoId d.min).1
        min := (idVersion repoId d.min).2 }, false)

/-- `DeclRepoId::setVersion`, and whether it is refused. -/
def DeclRepoId.setVersion (d : DeclRepoId) (maj min : ℤ) : Option (DeclRepoId × Bool) :=
  if d.set then some (d, d.maj ≠ maj ∨ d.min ≠ min)
  else
    (genRepoId d.scopePrefix d.identifier maj min).map fun repoId =>
      ({ d with set := true, repoId := repoId, maj := maj, min := min }, false)

/-! ### Actions -/

/-- What the grammar and the lexer do. A definition knows the forward declaration that its scope has
of its name. A union whose switch type was not found ends before its scope does. -/
inductive Event where
  | declare (kind : DeclKind) (identifier : List UInt8) (fwd : Option ℕ)
  | endScope (noSwitchType : Bool)
  | newFile
  | endFile
  | pragmaPrefix (str : List UInt8)
  | pragmaId (k : ℕ) (repoId : List UInt8)
  | pragmaVersion (k maj min : ℕ)

structure RepoState where
  prefixes : List Prefix
  decls : List DeclRepoId
  errors : List Report

namespace RepoState

/-- `AST::process` begins a file. -/
def initial : RepoState := ⟨[.newFile], [], []⟩

variable (st : RepoState)

def current : Prefix := st.prefixes.headD .newFile

/-- The forward declaration that a definition takes over from. -/
def forwardOf (kind : DeclKind) (fwd : Option ℕ) : Option DeclRepoId :=
  (fwd.bind (st.decls[·]?)).filter fun f => kind.takesOver f.kind

/-- A declaration: `DeclRepoId::DeclRepoId`, the forward declaration, `Prefix::newScope`. -/
def declare (kind : DeclKind) (identifier : List UInt8) (fwd : Option ℕ) : Option RepoState :=
  (genRepoId st.current.str (unescaped identifier) 1 0).map fun repoId =>
    let d : DeclRepoId :=
      { kind, identifier := unescaped identifier, scopePrefix := st.current.str, set := false,
        repoId, maj := 1, min := 0 }
    let f := st.forwardOf kind fwd
    { prefixes :=
        if kind.opensScope then st.current.newScope identifier :: st.prefixes else st.prefixes
      decls := st.decls ++
        [match f with
          | some f => if f.set then (d.setRepoId f.repoId).1 else d
          | none => d]
      errors := st.errors ++
        match f with
        | some f => if f.scopePrefix ≠ d.scopePrefix then [.prefixDiffers st.decls.length] else []
        | none => [] }

/-- A pragma of a declaration, with what it does there and what it reports where that is
refused. -/
def visit (k : ℕ) (f : DeclRepoId → Option (DeclRepoId × Bool)) (report : Report) :
    Option RepoState :=
  match st.decls[k]? with
  | none => some { st with errors := st.errors ++ [.unknownName] }
  | some d =>
    if d.kind = .enumerator then some { st with errors := st.errors ++ [.notSettable k] }
    else if d.kind.visited then
      (f d).map fun r =>
        { st with
          decls := st.decls.set k r.1
          errors := st.errors ++ if r.2 then [report] else [] }
    else some st

def step : Event → Option RepoState
  | .declare kind identifier fwd => st.declare kind identifier fwd
  | .endScope noSwitchType =>
    some (if noSwitchType then st else { st with prefixes := endPrefix st.prefixes })
  | .newFile => some { st with prefixes := .newFile :: st.prefixes }
  | .endFile => some { st with prefixes := endPrefix st.prefixes }
  | .pragmaPrefix str =>
    some { st with
      prefixes :=
        match st.prefixes with
        | [] => []
        | p :: prefixes => { p with str := str } :: prefixes }
  | .pragmaId k repoId => st.visit k (fun d => some (d.setRepoId repoId)) (.cannotSetId k repoId)
  | .pragmaVersion k maj min =>
    st.visit k (fun d => d.setVersion (toShort maj) (toShort min))
      (.cannotSetVersion k (toShort maj) (toShort min))

/-- The actions of a history, whose last one comes first. -/
def run : List Event → Option RepoState
  | [] => some initial
  | e :: history => (run history).bind fun st => st.step e

end RepoState

end OmniORB.Idl
