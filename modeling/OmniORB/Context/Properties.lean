import OmniORB.Library.Halving
import OmniORB.Library.Transitions
import OmniORB.Poa.Keys

/-!
# Contexts

The properties of a `ContextImpl` (`context.cc`). Numbers of entries are whole numbers, and a `char`
that is not ASCII is no letter.
-/

namespace OmniORB

open Library

/-! ### Comparing names -/

/-- `tolower` -/
def toLower (c : UInt8) : UInt8 := if 65 ≤ c ∧ c ≤ 90 then c + 32 else c

/-- `isalpha` -/
def isAlpha (c : UInt8) : Bool := (65 ≤ c && c ≤ 90) || (97 ≤ c && c ≤ 122)

/-- `isalnum` -/
def isAlnum (c : UInt8) : Bool := isAlpha c || (48 ≤ c && c ≤ 57)

/-- A string as `strcasecmp` sees it. -/
def foldCase (s : List UInt8) : List UInt8 := s.map toLower

def strcasecmp (s t : List UInt8) : ℤ := strcmp (foldCase s) (foldCase t)

def strncasecmp (s t : List UInt8) (n : ℕ) : ℤ := strcasecmp (s.take n) (t.take n)

/-! ### Searching the entries -/

/-- The exceptions of the operations on contexts. -/
inductive ContextExn where
  | nullString
  | invalidContextName
  | anyDoesNotContainAString
  | emptyContextPattern
  | noMatchingProperty
  | startingScopeNotFound
  deriving DecidableEq, Repr

variable {α : Type}

/-- The last octet is `*`. -/
def endsWithStar (pattern : List UInt8) : Bool := pattern.getLast? = some 42

/-- `matchPattern`, for entries of which `name` tells the name: the first match and the last match + 1. -/
def matchPattern (name : α → List UInt8) (entries : List α) (pattern : List UInt8) :
    Except ContextExn (Option (ℕ × ℕ)) :=
  if pattern = [] then .error .emptyContextPattern
  else
    let wildcard := endsWithStar pattern
    let patLen := if wildcard then pattern.length - 1 else pattern.length
    let count := entries.length
    if wildcard ∧ patLen = 0 then .ok (if entries = [] then none else some (0, count))
    else
      let cmp := fun e =>
        if wildcard then strncasecmp pattern (name e) patLen else strcasecmp pattern (name e)
      let found := halve cmp entries count 0 count
      if !found.1 then .ok none
      else if wildcard then
        let p := fun e => strncasecmp pattern (name e) patLen = 0
        .ok (some (extendDown p entries found.2, extendUp p entries count (found.2 + 1)))
      else .ok (some (found.2, found.2 + 1))

/-- `insert_single_consume`: where the entry of that name is, or where it is to be. -/
def findEntry (name : α → List UInt8) (entries : List α) (s : List UInt8) : Bool × ℕ :=
  halve (fun e => strcasecmp s (name e)) entries entries.length 0 entries.length

/-! ### The entries of a context -/

/-- `check_property_name`; at the start of the name and after each dot a letter is expected. -/
def checkPropertyName : Bool → List UInt8 → Bool
  | true, [] => false
  | true, c :: s => isAlpha c && checkPropertyName false s
  | false, [] => true
  | false, c :: s =>
    if isAlnum c || c = 95 then checkPropertyName false s
    else if c = 46 then checkPropertyName true s
    else false

/-- `ContextImpl::Entry`, which points to two strings. -/
structure ContextEntry where
  name : ℕ
  value : ℕ
  deriving DecidableEq, Repr

/-- `ContextImpl`, with the strings that `string_dup` made, and those that `string_free` released. -/
structure ContextImpl where
  entries : List ContextEntry
  strings : List CString
  freed : List ℕ
  deriving DecidableEq

namespace ContextImpl

def init : ContextImpl := ⟨[], [], []⟩

/-- What a pointer points to. -/
def text (c : ContextImpl) (p : ℕ) : List UInt8 := (c.strings[p]?).elim [] CString.octets

def name (c : ContextImpl) (e : ContextEntry) : List UInt8 := c.text e.name

def value (c : ContextImpl) (e : ContextEntry) : List UInt8 := c.text e.value

def stringDup (c : ContextImpl) (s : CString) : ContextImpl × ℕ :=
  ({ c with strings := c.strings ++ [s] }, c.strings.length)

def stringFree (c : ContextImpl) (p : ℕ) : ContextImpl := { c with freed := c.freed ++ [p] }

/-- The entry that is at `i`. -/
def entry (c : ContextImpl) (i : ℕ) : ContextEntry := c.entries.getD i ⟨0, 0⟩

def insertSingleConsume (c : ContextImpl) (name value : ℕ) : ContextImpl :=
  let found := findEntry c.name c.entries (c.text name)
  if found.1 then
    let e := c.entry found.2
    { (c.stringFree e.value).stringFree name with entries := c.entries.set found.2 { e with value } }
  else { c with entries := c.entries.insertIdx found.2 ⟨name, value⟩ }

/-- `set_one_value`. A pointer may be null, and the `Any` may hold something else. -/
def setOneValue (c : ContextImpl) (propName value : Option CString) : Except ContextExn Unit × ContextImpl :=
  match propName with
  | none => (.error .nullString, c)
  | some propName =>
    if checkPropertyName true propName.octets then
      let c := c.stringDup propName
      match value with
      | none => (.error .anyDoesNotContainAString, c.1.stringFree c.2)
      | some value =>
        let d := c.1.stringDup value
        (.ok (), d.1.insertSingleConsume c.2 d.2)
    else (.error .invalidContextName, c)

def setValues (c : ContextImpl) : List (Option CString × Option CString) → Except ContextExn Unit × ContextImpl
  | [] => (.ok (), c)
  | (name, value) :: values =>
    let r := c.setOneValue name value
    match r.1 with
    | .error e => (.error e, r.2)
    | .ok () => r.2.setValues values

/-- The loop of `delete_values`, `n` times from `i` on. -/
def deleteLoop (nmatches : ℕ) : ℕ → ℕ → ContextImpl → ContextImpl
  | 0, _, c => c
  | n + 1, i, c =>
    let e := c.entry i
    let c := (c.stringFree e.name).stringFree e.value
    deleteLoop nmatches n (i + 1) { c with entries := c.entries.set i (c.entry (i + nmatches)) }

def deleteValues (c : ContextImpl) (pattern : Option CString) : Except ContextExn Unit × ContextImpl :=
  match matchPattern c.name c.entries (pattern.elim [] CString.octets) with
  | .error e => (.error e, c)
  | .ok none => (.error .noMatchingProperty, c)
  | .ok (some (bottom, top)) =>
    let nmatches := top - bottom
    let count := c.entries.length
    let c := deleteLoop nmatches (count - nmatches - bottom) bottom c
    (.ok (), { c with entries := c.entries.take (count - nmatches) })

end ContextImpl

/-- An operation on a context. -/
inductive ContextOp where
  | setOneValue (name value : Option CString)
  | setValues (values : List (Option CString × Option CString))
  | deleteValues (pattern : Option CString)
  deriving DecidableEq

namespace ContextImpl

def perform (c : ContextImpl) : ContextOp → Except ContextExn Unit × ContextImpl
  | .setOneValue name value => c.setOneValue name value
  | .setValues values => c.setValues values
  | .deleteValues pattern => c.deleteValues pattern

/-- What an operation leaves, perhaps after an exception. -/
def step (c : ContextImpl) (op : ContextOp) : Option ContextImpl := some (c.perform op).2

end ContextImpl

end OmniORB
