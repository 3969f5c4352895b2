import OmniORB.Idl.RepoIdVersions

/-!
# What repository ids are for

A history of declarations, pragmas, and ends of scopes and files, whose last event comes first. What
the history says by itself, without the stack of prefixes: the prefix that is in force at each level
of nesting, the id that each declaration has, and which pragmas are refused.
-/

namespace OmniORB.Idl

/-! ### Prefixes in force -/

/-- A new level of nesting. -/
def nested (p : Option Prefix) (outer : ℕ → Option Prefix) : ℕ → Option Prefix
  | 0 => p
  | depth + 1 => outer depth

/-- The prefix in force in the scope or file that is so many levels out. -/
def inForce : List Event → ℕ → Option Prefix
  | [] => nested (some .newFile) fun _ => none
  | .declare kind identifier _ :: h =>
    if kind.opensScope then nested ((inForce h 0).map fun p => p.newScope identifier) (inForce h)
    else inForce h
  | .newFile :: h => nested (some .newFile) (inForce h)
  | .endScope _ :: h => fun depth => inForce h (depth + 1)
  | .endFile :: h => fun depth => inForce h (depth + 1)
  | .pragmaPrefix str :: h =>
    nested ((inForce h 0).map fun p => { p with str := str }) fun depth => inForce h (depth + 1)
  | _ :: h => inForce h

/-- The text of the innermost one. -/
def prefixIn (h : List Event) : List UInt8 := ((inForce h 0).getD .newFile).str

namespace Event

/-- The event ends a scope or a file. -/
def isEnd : Event → Bool
  | endScope _ | endFile => true
  | _ => false

/-- The event begins and ends neither a scope nor a file. -/
def isPlain : Event → Bool
  | declare kind _ _ => !kind.opensScope
  | newFile | endScope _ | endFile => false
  | _ => true

/-- The second event ends the scope or the file that the first one begins. -/
inductive Pairs : Event → Event → Prop
  | scope {kind : DeclKind} {identifier : List UInt8} {fwd : Option ℕ} {noSwitchType : Bool}
      (h : kind.opensScope = true) : Pairs (declare kind identifier fwd) (endScope noSwitchType)
  | file : Pairs newFile endFile

end Event

/-- Whatever ends has begun. -/
def Opened : List Event → Prop
  | [] => True
  | e :: h => (e.isEnd = true → (inForce h 1).isSome = true) ∧ Opened h

/-- The scopes and files that begin in the history end in it, the inner ones first. -/
inductive WellNested : List Event → Prop
  | nil : WellNested []
  | plain {e : Event} {body : List Event} (he : e.isPlain = true) (hb : WellNested body) :
      WellNested (e :: body)
  | within {opening closing : Event} {inner body : List Event} (hp : opening.Pairs closing)
      (hi : WellNested inner) (hb : WellNested body) :
      WellNested (closing :: (inner ++ opening :: body))

@[simp] lemma nested_zero {p : Option Prefix} {outer : ℕ → Option Prefix} :
    nested p outer 0 = p := rfl

@[simp] lemma nested_succ {p : Option Prefix} {outer : ℕ → Option Prefix} {depth : ℕ} :
    nested p outer (depth + 1) = outer depth := rfl

lemma inForce_of_plain {e : Event} (he : e.isPlain = true) (h : List Event) (depth : ℕ) :
    inForce (e :: h) (depth + 1) = inForce h (depth + 1) := by
  cases e with
  | declare kind identifier fwd =>
    have hkind : kind.opensScope = false := by simpa [Event.isPlain] using he
    rw [inForce, if_neg (by simp [hkind])]
  | endScope => cases he
  | newFile => cases he
  | endFile => cases he
  | pragmaPrefix => rfl
  | pragmaId => rfl
  | pragmaVersion => rfl

lemma inForce_opening {opening closing : Event} (hp : opening.Pairs closing) (h : List Event)
    (depth : ℕ) : inForce (opening :: h) (depth + 1) = inForce h depth := by
  cases hp with
  | scope hkind => rw [inForce, if_pos hkind, nested_succ]
  | file => rfl

lemma inForce_closing {opening closing : Event} (hp : opening.Pairs closing) (h : List Event)
    (depth : ℕ) : inForce (closing :: h) depth = inForce h (depth + 1) := by
  cases hp with
  | scope => rfl
  | file => rfl

/-- What is within a scope changes nothing outside of it. -/
lemma inForce_wellNested {body : List Event} (hb : WellNested body) (h : List Event) (depth : ℕ) :
    inForce (body ++ h) (depth + 1) = inForce h (depth + 1) := by
  induction hb generalizing h depth with
  | nil => rfl
  | plain he hb ih => rw [List.cons_append, inForce_of_plain he, ih]
  | within hp hi hb ihInner ihBody =>
    rw [List.cons_append, inForce_closing hp, List.append_assoc, ihInner, List.cons_append,
      inForce_opening hp, ihBody]

/-- The end of a scope or a file restores the prefixes. -/
theorem inForce_restored {opening closing : Event} {body : List Event}
    (hp : opening.Pairs closing) (hb : WellNested body) (h : List Event) :
    inForce (closing :: (body ++ opening :: h)) = inForce h := by
  funext depth
  rw [inForce_closing hp, inForce_wellNested hb, inForce_opening hp]

/-! ### Declarations -/

/-- What a pragma sets. -/
inductive Setting where
  | id (repoId : List UInt8)
  | version (maj min : ℕ)

structure DeclaredId where
  kind : DeclKind
  name : List UInt8
  scopePrefix : List UInt8
  setting : Option Setting

namespace DeclaredId

/-- The id that the declaration is to have. -/
def repoId (a : DeclaredId) : List UInt8 :=
  match a.setting with
  | none => omgId a.scopePrefix a.name 1 0
  | some (.id repoId) => repoId
  | some (.version maj min) => omgId a.scopePrefix a.name maj min

/-- What is set agrees with what was set first, in either form. -/
def Accepts (a : DeclaredId) (s : Setting) : Prop :=
  match a.setting, s with
  | none, _ => True
  | some _, .id repoId => repoId = a.repoId
  | some (.id repoId), .version maj min => HasVersion repoId maj min
  | some (.version maj min), .version maj' min' => maj' = maj ∧ min' = min

/-- What is set first stays. -/
def settle (s : Setting) (a : DeclaredId) : DeclaredId :=
  if a.kind = .enumerator ∨ a.setting.isSome then a else { a with setting := some s }

end DeclaredId

/-- The forward declaration that a definition takes over from. -/
def taken (kind : DeclKind) (fwd : Option ℕ) (ds : List DeclaredId) : Option DeclaredId :=
  (fwd.bind (ds[·]?)).filter fun f => kind.takesOver f.kind

/-- The declarations of a history, with what is set for them. -/
def declaredIds : List Event → List DeclaredId
  | [] => []
  | .declare kind identifier fwd :: h =>
    declaredIds h ++
      [{ kind
         name := unescaped identifier
         scopePrefix := prefixIn h
         setting :=
           (taken kind fwd (declaredIds h)).bind fun f => f.setting.map fun _ => .id f.repoId }]
  | .pragmaId k repoId :: h => (declaredIds h).modify k (DeclaredId.settle (.id repoId))
  | .pragmaVersion k maj min :: h => (declaredIds h).modify k (DeclaredId.settle (.version maj min))
  | _ :: h => declaredIds h

/-! ### Reports -/

/-- The report that a setting is refused. -/
def Setting.refused (k : ℕ) : Setting → Report
  | id repoId => .cannotSetId k repoId
  | version maj min => .cannotSetVersion k maj min

open Classical in
/-- What is reported of a pragma: that there is nothing of the name, that it does not apply, or that
it does not agree. -/
noncomputable def refusal (ds : List DeclaredId) (k : ℕ) (s : Setting) : List Report :=
  match ds[k]? with
  | none => [.unknownName]
  | some a =>
    if a.kind = .enumerator then [.notSettable k]
    else if a.Accepts s then [] else [s.refused k]

/-- What is reported in a history. -/
noncomputable def reports : List Event → List Report
  | [] => []
  | .declare kind _ fwd :: h =>
    reports h ++
      match taken kind fwd (declaredIds h) with
      | none => []
      | some f => if f.scopePrefix ≠ prefixIn h then [.prefixDiffers (declaredIds h).length] else []
  | .pragmaId k repoId :: h => reports h ++ refusal (declaredIds h) k (.id repoId)
  | .pragmaVersion k maj min :: h => reports h ++ refusal (declaredIds h) k (.version maj min)
  | _ :: h => reports h

end OmniORB.Idl
