import OmniORB.Cdr.Encapsulation
import OmniORB.Context.Matching

/-!
# Chains of contexts

How the entries of a context and its parents are written to a call, read from it, filtered for a local
call and looked up (`context.cc`). A chain is a list of scopes, the nearest first; the nil context is
the empty list. Numbers of entries are whole numbers.
-/

namespace OmniORB

open Library

/-- An entry of a context, with the texts themselves: the name and the value. -/
abbrev ContextProperty := CString × CString

def propertyName (e : ContextProperty) : List UInt8 := e.1.octets

/-- A `ContextImpl` in a chain. Its entries are sorted, and its names were checked. -/
structure ContextScope where
  name : CString
  entries : List ContextProperty
  sorted : SortedByName propertyName entries
  valid : ∀ e ∈ entries, checkPropertyName true e.1.octets = true

/-- `insert_single_consume` -/
def insertProperty (entries : List ContextProperty) (e : ContextProperty) : List ContextProperty :=
  let found := findEntry propertyName entries e.1.octets
  if found.1 then entries.set found.2 (((entries[found.2]?).getD e).1, e.2) else entries.insertIdx found.2 e

/-- The entries that `matchPattern` tells. -/
def entriesBetween (entries : List ContextProperty) (range : Option (ℕ × ℕ)) : List ContextProperty :=
  range.elim [] fun r => entries.extract r.1 r.2

/-! ### Local and remote calls -/

section

variable {β : Type} (add : β → List ContextProperty → Except ContextExn β) (which : List CString)

/-- The loop over the patterns. -/
def walkScope (acc : β) (c : ContextScope) : Except ContextExn β :=
  which.foldlM (fun acc pattern => do
    let range ← matchPattern propertyName c.entries pattern.octets
    add acc (entriesBetween c.entries range)) acc

/-- The loop over the parents. -/
def walkChain (chain : List ContextScope) (acc : β) : Except ContextExn β :=
  chain.foldlM (walkScope add which) acc

end

/-- What `marshalContext` does with the matches of a pattern: it looks for each name among those that
were there before the pattern. -/
def appendUnlessThere (seq found : List ContextProperty) : List ContextProperty :=
  let currLen := seq.length
  found.foldl (fun seq e =>
    if (seq.take currLen).any (fun f => strcasecmp f.1.octets e.1.octets = 0) then seq else seq ++ [e]) seq

/-- The strings of an entry. -/
def marshalProperty (s : CdrOut) (e : ContextProperty) : CdrOut :=
  ((s.marshalRawString e.1.octets).1.marshalRawString e.2.octets).1

def marshalContext (which : List CString) (chain : List ContextScope) (s : CdrOut) : Except ContextExn CdrOut :=
  if chain = [] then .ok (s.marshalULong 0)
  else do
    let seq ← walkChain (fun seq found => .ok (appendUnlessThere seq found)) which chain []
    .ok (seq.foldl marshalProperty (s.marshalULong (2 * seq.length)))

/-- What ends `unmarshalContext`, where the strings themselves can be read. -/
inductive ContextListExn where
  | marshalInvalidContextList
  deriving DecidableEq, Repr

/-- The loop of `unmarshalContext`. -/
def unmarshalProperties : ℕ → List ContextProperty → Unmarshal (List ContextProperty)
  | 0, c => pure c
  | n + 1, c => do
    let name ← Unmarshal.rawString
    let value ← Unmarshal.rawString
    unmarshalProperties n (insertProperty c (name, value))

def unmarshalContext : Unmarshal (Except ContextListExn (List ContextProperty)) := do
  let nentries ← Unmarshal.ulong
  if nentries % 2 ≠ 0 then return .error .marshalInvalidContextList
  else
    let c ← unmarshalProperties (nentries / 2) []
    return .ok c

/-- What `filterContext` does with a match: its name is a pattern for the entries that are there. -/
def filterProperty (ret : List ContextProperty) (e : ContextProperty) : Except ContextExn (List ContextProperty) := do
  let found ← matchPattern propertyName ret e.1.octets
  .ok (if found.isSome then ret else insertProperty ret e)

def filterContext (which : List CString) (chain : List ContextScope) : Except ContextExn (List ContextProperty) :=
  walkChain (fun ret found => found.foldlM filterProperty ret) which chain []

/-! ### get_values -/

/-- What `add_values` does with a match: it looks for the name in the whole list. -/
def addValue (valList : List ContextProperty) (e : ContextProperty) : List ContextProperty :=
  if valList.any (fun f => strcasecmp e.1.octets f.1.octets = 0) then valList else valList ++ [e]

def addValues (restrictScope : Bool) (pattern : CString) (wildcard : Bool) :
    List ContextScope → List ContextProperty → Except ContextExn (List ContextProperty)
  | [], valList => .ok valList
  | c :: parents, valList => do
    let range ← matchPattern propertyName c.entries pattern.octets
    let valList := (entriesBetween c.entries range).foldl addValue valList
    if range.isSome && !wildcard then .ok valList
    else if restrictScope then .ok valList
    else addValues restrictScope pattern wildcard parents valList

/-- `get_values`. The two strings may be null, and of the flags `CTX_RESTRICT_SCOPE` is read. -/
def getValues (chain : List ContextScope) (startScope : Option CString) (restrictScope : Bool)
    (pattern : Option CString) : Except ContextExn (List ContextProperty) :=
  let pattern := pattern.getD .empty
  let start := startScope.getD .empty
  if pattern.octets = [] then .error .emptyContextPattern
  else
    let c := if start.octets = [] then chain
      else chain.dropWhile fun c => strcasecmp c.name.octets start.octets ≠ 0
    if c = [] then .error .startingScopeNotFound
    else do
      let values ← addValues restrictScope pattern (endsWithStar pattern.octets) c []
      if values = [] then .error .noMatchingProperty else .ok values

/-! ### What a call sees -/

/-- The first entry of that name, ignoring case, the nearest scope first. -/
def nearestProperty (chain : List ContextScope) (s : CString) : Option ContextProperty :=
  (chain.flatMap ContextScope.entries).find? fun e => foldCase e.1.octets = foldCase s.octets

/-- The entries are sorted; they are those of the nearest scopes of which some pattern matches the name. -/
structure SeenThrough (which : List CString) (chain : List ContextScope) (entries : List ContextProperty) :
    Prop where
  sorted : SortedByName propertyName entries
  mem_iff : ∀ e, e ∈ entries ↔
    nearestProperty chain e.1 = some e ∧ ∃ pattern ∈ which, matchesPattern pattern.octets e.1.octets = true

end OmniORB
