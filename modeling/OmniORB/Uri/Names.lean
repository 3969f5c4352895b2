import Mathlib

/-!
# Stringified names

`CORBA::string_alloc`, and `stringToName` and `nameToString` of `uri.cc`. A `char` is an octet. The
sizes are `unsigned int`s, and `string_alloc` passes its size on to an `int`.
-/

namespace OmniORB

/-! ### C strings -/

/-- A C string: the octets before its terminator. -/
structure CString where
  octets : List UInt8
  noNul : 0 ∉ octets
  deriving DecidableEq

namespace CString

/-- The string that starts a buffer. -/
def ofBuffer (b : List UInt8) : CString where
  octets := b.takeWhile (· ≠ 0)
  noNul := by
    intro h
    have h0 := List.mem_takeWhile_imp h
    simp at h0

def empty : CString := ⟨[], by simp⟩

/-- The octets with the terminator. -/
def terminated (s : CString) : List UInt8 := s.octets ++ [0]

/-- A string of one octet over and over. -/
def replicate (n : ℕ) (c : UInt8) (hc : c ≠ 0) : CString where
  octets := List.replicate n c
  noNul := by
    intro h
    exact hc (List.eq_of_mem_replicate h).symm

lemma ofBuffer_append_nul {b : List UInt8} (hb : 0 ∉ b) (r : List UInt8) :
    (ofBuffer (b ++ 0 :: r)).octets = b := by
  have hall : ∀ c ∈ b, decide (c ≠ 0) = true := by
    intro c hc
    rw [decide_eq_true_eq]
    rintro rfl
    exact hb hc
  change (b ++ 0 :: r).takeWhile (· ≠ 0) = b
  rw [List.takeWhile_append_of_pos hall]
  simp

@[ext] lemma ext {s t : CString} (h : s.octets = t.octets) : s = t := by
  cases s
  cases t
  simpa using h

end CString

/-! ### Exceptions -/

/-- The minor codes of `BAD_PARAM` that `uri.cc` raises. -/
inductive BadParam where
  | nullStringUnexpected
  | badURIOther
  | badSchemeName
  | badSchemeSpecificPart
  | badAddress
  deriving DecidableEq, Repr

/-- What ends a function of `uri.cc` other than its return. The last two are none of the source's
exceptions: a write outside a buffer, and a loop that goes round without an end. -/
inductive UriExn where
  | badParam (minor : BadParam)
  | invalidName
  | invalidAddress
  | badAlloc
  | overrun
  | runaway
  deriving DecidableEq, Repr

/-! ### Buffers -/

/-- An `unsigned int`. -/
def ulong (n : ℕ) : ℕ := n % 2 ^ 32

lemma ulong_of_lt {n : ℕ} (h : n < 2 ^ 32) : ulong n = n := Nat.mod_eq_of_lt h

lemma ulong_lt (n : ℕ) : ulong n < 2 ^ 32 := Nat.mod_lt n (by decide)

/-- `CORBA::string_alloc`: the capacity of the buffer that it gives. The size becomes an `int`, to
which one is added: `new` refuses what is negative then, and makes no room for the terminator that
`string_alloc` writes when the sum is zero. -/
def stringAlloc (len : ℕ) : Except UriExn ℕ :=
  if ulong len < 2 ^ 31 - 1 then .ok (ulong len + 1)
  else if ulong len = 2 ^ 32 - 1 then .error .overrun
  else .error .badAlloc

lemma stringAlloc_of_lt {len : ℕ} (h : len < 2 ^ 31 - 1) : stringAlloc len = .ok (len + 1) := by
  have hl : ulong len = len := ulong_of_lt (by omega)
  rw [stringAlloc, hl, if_pos h]

/-- A buffer is no larger than its size asked for, and never of `2 ^ 31` octets. -/
lemma stringAlloc_ok {len cap : ℕ} (h : stringAlloc len = .ok cap) :
    cap = ulong len + 1 ∧ ulong len < 2 ^ 31 - 1 := by
  unfold stringAlloc at h
  split_ifs at h with hl he
  exact ⟨(Except.ok.inj h).symm, hl⟩

/-- Write `bufp[j] = c` in a buffer. -/
def store (cap : ℕ) (b : List UInt8) (c : UInt8) : Except UriExn (List UInt8) :=
  if b.length < cap then .ok (b ++ [c]) else .error .overrun

lemma store_of_lt {cap : ℕ} {b : List UInt8} {c : UInt8} (h : b.length < cap) :
    store cap b c = .ok (b ++ [c]) := if_pos h

/-! ### Names -/

/-- `CosNaming::NameComponent`; a new one holds empty strings. -/
structure NameComponent where
  id : CString
  kind : CString
  deriving DecidableEq

/-- `CosNaming::Name` -/
abbrev Name := List NameComponent

/-- The characters that are written with a backslash before them. -/
def isSpecial (c : UInt8) : Bool := c = 0x2f || c = 0x2e || c = 0x5c

/-! ### `stringToName` -/

/-- `enum { s_id, s_kind }` -/
inductive ParseState where
  | id | kind
  deriving DecidableEq, Repr

/-- The variables of the loop of `stringToName`: the components before the current one, the current
one, the first `j` octets of `bufp`, and the state. -/
structure NameScan where
  before : Name
  current : NameComponent
  buf : List UInt8
  state : ParseState

/-- `name`, all its components. -/
def NameScan.name (sc : NameScan) : Name := sc.before ++ [sc.current]

/-- The variables before the loop. -/
def NameScan.initial : NameScan where
  before := []
  current := ⟨.empty, .empty⟩
  buf := []
  state := .id

/-- A `.` ends the id. -/
def scanDot (cap : ℕ) (sc : NameScan) : Except UriExn NameScan :=
  match sc.state with
  | .id => do
    let b ← store cap sc.buf 0
    .ok { sc with current := { sc.current with id := .ofBuffer b }, buf := [], state := .kind }
  | .kind => .error .invalidName

/-- A `/` or the terminator ends a component. -/
def scanEnd (cap : ℕ) (sc : NameScan) : Except UriExn NameScan :=
  match sc.state with
  | .id =>
    if sc.buf.length = 0 then .error .invalidName
    else do
      let b ← store cap sc.buf 0
      .ok { sc with current := ⟨.ofBuffer b, .empty⟩, buf := [], state := .id }
  | .kind =>
    -- trailing . is only allowed if the id is empty
    if sc.buf.length = 0 ∧ sc.current.id.octets ≠ [] then .error .invalidName
    else do
      let b ← store cap sc.buf 0
      .ok { sc with current := { sc.current with kind := .ofBuffer b }, buf := [], state := .id }

/-- `component++` -/
def NameScan.nextComponent (sc : NameScan) : NameScan :=
  { sc with before := sc.before ++ [sc.current], current := ⟨.empty, .empty⟩ }

/-- The loop of `stringToName` at `sname[i]`, with the octets from there to the terminator. -/
def scanName (len cap : ℕ) : List UInt8 → ℕ → NameScan → Except UriExn Name
  | [], i, sc => if len < i then .ok sc.name else .error .runaway
  | c :: rest, i, sc =>
    if len < i then .ok sc.name
    else if c = 0x5c then
      match rest with
      | [] => .error .runaway
      | c' :: rest' =>
        if c' ≠ 0x5c ∧ c' ≠ 0x2f ∧ c' ≠ 0x2e then .error .invalidName
        else do
          let b ← store cap sc.buf c'
          scanName len cap rest' (ulong (i + 2)) { sc with buf := b }
    else if c = 0x2e then do
      let sc ← scanDot cap sc
      scanName len cap rest (ulong (i + 1)) sc
    else if c = 0x2f ∨ c = 0 then do
      let sc ← scanEnd cap sc
      scanName len cap rest (ulong (i + 1)) (if c = 0x2f then sc.nextComponent else sc)
    else do
      let b ← store cap sc.buf c
      scanName len cap rest (ulong (i + 1)) { sc with buf := b }

/-- `omniURI::stringToName`; `none` is a null pointer. -/
def stringToName (sname : Option CString) : Except UriExn Name :=
  match sname with
  | none => .error (.badParam .nullStringUnexpected)
  | some s =>
    if s.octets = [] then .error .invalidName
    else do
      let len := ulong s.octets.length
      let cap ← stringAlloc (ulong (len + 1))
      scanName len cap s.terminated 0 .initial

/-! ### `nameToString` -/

/-- The octets that one string takes. -/
def escapedSize (s : CString) : ℕ := (s.octets.map fun c => if isSpecial c then 2 else 1).sum

/-- There is a `.` if there is a kind, or no id. -/
def NameComponent.hasDot (n : NameComponent) : Bool := n.id.octets = [] || n.kind.octets ≠ []

/-- What the first pass of `nameToString` counts for one component. -/
def NameComponent.space (n : NameComponent) : ℕ :=
  escapedSize n.id + (if n.hasDot then 1 else 0) + escapedSize n.kind + 1

/-- `slen` after the first pass. -/
def nameSpace (name : Name) : ℕ := ulong (name.map NameComponent.space).sum

/-- What the second pass writes for one string. -/
def escaped (b : List UInt8) : List UInt8 :=
  b.flatMap fun c => if isSpecial c then [0x5c, c] else [c]

/-- What the second pass writes for one component, before the `/`. -/
def NameComponent.text (n : NameComponent) : List UInt8 :=
  escaped n.id.octets ++ (if n.hasDot then [0x2e] else []) ++ escaped n.kind.octets

/-- What the second pass writes. -/
def nameWritten (name : Name) : List UInt8 := name.flatMap fun n => n.text ++ [0x2f]

/-- `omniURI::nameToString` -/
def nameToString (name : Name) : Except UriExn CString :=
  if name = [] then .error .invalidName
  else do
    let slen := nameSpace name
    let cap ← stringAlloc slen
    let last := ulong (slen + (2 ^ 32 - 1))
    if (nameWritten name).length ≤ cap ∧ last < cap then
      .ok (.ofBuffer ((nameWritten name).set last 0))
    else .error .overrun

end OmniORB
