import OmniORB.Library.ChainTable

/-!
# Value trackers

`OutputValueTracker` and `InputValueTracker` of `valueTracker.cc`: tables of what has been marshalled
or unmarshalled at which position of a stream, to which indirections refer. Values are named by their
addresses.
-/

namespace OmniORB

open Library

/-- `tableSizes`, without the `-1` that ends it. -/
def trackerSizes : List ℕ :=
  [128 + 3, 1024 + 9, 8192 + 27, 32768 + 3, 65536 + 45, 131072 + 9, 262144 + 39, 524288 + 39,
    1048576 + 9, 2097152 + 5, 4194304 + 3, 8388608 + 33, 16777216 + 27, 33554432 + 9,
    67108864 + 71, 134217728 + 39, 268435456 + 9, 536870912 + 5, 1073741824 + 83]

/-- A position is stored as a `CORBA::Long`. -/
def storedPosition (p : ℤ) : ℤ := p.bmod (2 ^ 32)

/-- The data of a tracker. -/
structure Tracker (α : Type) where
  table : ChainTable α
  count : ℕ
  limit : ℕ
  nextIdx : ℕ

namespace Tracker

variable {α : Type}

/-- The constructor: the table has the first of the sizes. -/
def initial : Tracker α := ⟨.empty (128 + 3), 0, (128 + 3) * 2 / 3, 1⟩

/-- `resizeTable`, where entries have a number for their bucket. -/
def resizeTable (hash : α → ℕ) (t : Tracker α) : Tracker α :=
  match trackerSizes[t.nextIdx]? with
  | none => t
  | some size =>
    { t with
      table := t.table.rehash hash id size
      limit := size * 2 / 3
      nextIdx := t.nextIdx + 1 }

/-- `add` counts an entry. -/
def add (hash : α → ℕ) (t : Tracker α) : Tracker α :=
  let t := { t with count := (t.count + 1) % 2 ^ 32 }
  if t.count = t.limit then t.resizeTable hash else t

/-- The size to which the next `add` brings the table. -/
def grownSize (t : Tracker α) : Option ℕ :=
  if (t.count + 1) % 2 ^ 32 = t.limit then trackerSizes[t.nextIdx]? else none

end Tracker

/-! ### Output -/

/-- What an entry is for. -/
inductive OutputKey where
  | value (address : ℕ)
  | repoId (id : List UInt8)
  | repoIds (ids : List (List UInt8))
  deriving DecidableEq

structure OutputTableEntry where
  key : OutputKey
  position : ℤ
  hashbase : ℕ

/-- `addValue`, `addRepoId` or `addRepoIds`; the hash value of ids comes with them. -/
inductive OutputCall where
  | addValue (address : ℕ) (current : ℤ)
  | addRepoId (id : List UInt8) (hashval : ℕ) (current : ℤ)
  | addRepoIds (ids : List (List UInt8)) (hashval : ℕ) (current : ℤ)

namespace OutputCall

def key : OutputCall → OutputKey
  | addValue address _ => .value address
  | addRepoId id _ _ => .repoId id
  | addRepoIds ids _ _ => .repoIds ids

def hashval : OutputCall → ℕ
  | addValue address _ => address
  | addRepoId _ hashval _ => hashval
  | addRepoIds _ hashval _ => hashval

def current : OutputCall → ℤ
  | addValue _ current => current
  | addRepoId _ _ current => current
  | addRepoIds _ _ current => current

/-- The entry is for what the call is for. `listsMatch` also compares the hash values. -/
def isFor (c : OutputCall) (e : OutputTableEntry) : Bool :=
  match c with
  | addRepoIds ids hashval _ => e.key = .repoIds ids && e.hashbase = hashval
  | _ => e.key = c.key

/-- A new entry. -/
def entry (c : OutputCall) : OutputTableEntry where
  key := c.key
  position := storedPosition c.current
  hashbase := c.hashval

end OutputCall

abbrev OutputValueTracker : Type := Tracker OutputTableEntry

namespace OutputValueTracker

/-- The entry that a call finds. -/
def find (t : OutputValueTracker) (c : OutputCall) : Option OutputTableEntry :=
  (t.table.bucket (c.hashval % t.table.size)).find? c.isFor

/-- A call, and the position that it returns. -/
def call (t : OutputValueTracker) (c : OutputCall) : OutputValueTracker × ℤ :=
  match find t c with
  | some e => (t, e.position)
  | none =>
    let grown := t.add OutputTableEntry.hashbase
    ({ grown with table := grown.table.putAt (c.hashval % t.table.size) c.entry }, -1)

/-- The calls of a history, whose last one comes first. -/
def run : List OutputCall → OutputValueTracker
  | [] => .initial
  | c :: history => (call (run history) c).1

end OutputValueTracker

/-! ### Input -/

inductive InputKind where
  | value
  | repoId
  | repoIds
  deriving DecidableEq

/-- What has been unmarshalled. -/
inductive InputItem where
  | value (address : ℕ)
  | repoId (id : List UInt8)
  | repoIds (ids : List (List UInt8))
  deriving DecidableEq

def InputItem.kind : InputItem → InputKind
  | value _ => .value
  | repoId _ => .repoId
  | repoIds _ => .repoIds

/-- An entry with what it is, or refers to as an indirection. -/
structure InputTableEntry where
  item : InputItem
  indirect : Bool
  position : ℤ

/-- `addValue`, `addRepoId` and `addRepoIds`, or `lookupValue`, `lookupRepoId` and
`lookupRepoIds`. -/
inductive InputCall where
  | add (item : InputItem) (current : ℤ)
  | lookup (kind : InputKind) (pos current : ℤ)

abbrev InputValueTracker : Type := Tracker InputTableEntry

namespace InputValueTracker

/-- The remainder of a negative position is no index of the table. -/
def index (t : InputValueTracker) (p : ℤ) : Option ℕ :=
  if 0 ≤ p then some (p.toNat % t.table.size) else none

/-- `add`, which moves entries by their positions. -/
def count (t : InputValueTracker) : Option InputValueTracker :=
  if t.grownSize.isSome ∧ ∃ e ∈ t.table.entries, e.position < 0 then none
  else some (t.add fun e => e.position.toNat)

/-- `addValue`, `addRepoId` and `addRepoIds` -/
def add (t : InputValueTracker) (item : InputItem) (current : ℤ) : Option InputValueTracker :=
  (count t).bind fun t =>
    (index t current).map fun i =>
      { t with table := t.table.putAt i ⟨item, false, storedPosition current⟩ }

/-- The first entry of the position, which has to be of the kind. -/
def find (t : InputValueTracker) (kind : InputKind) (i : ℕ) (pos : ℤ) : Option InputItem :=
  (((t.table.bucket i).find? fun e => e.position = pos).map InputTableEntry.item).filter
    fun item => item.kind = kind

/-- `lookupValue`, `lookupRepoId` and `lookupRepoIds`, with what they find. One that finds nothing
throws. -/
def lookup (t : InputValueTracker) (kind : InputKind) (pos current : ℤ) :
    Option (InputValueTracker × Option InputItem) :=
  (index t pos).bind fun i =>
    match find t kind i pos with
    | none => some (t, none)
    | some item =>
      (index t current).map fun j =>
        ({ t with table := t.table.putAt j ⟨item, true, storedPosition current⟩ }, some item)

/-- A call has no result where it is outside of the table. -/
def call (t : InputValueTracker) : InputCall → Option (InputValueTracker × Option InputItem)
  | .add item current => (add t item current).map fun t => (t, none)
  | .lookup kind pos current => lookup t kind pos current

/-- The calls of a history, whose last one comes first. -/
def run : List InputCall → Option InputValueTracker
  | [] => some .initial
  | c :: history => (run history).bind fun t => (call t c).map Prod.fst

end InputValueTracker

end OmniORB
