import OmniORB.Cdr.Stream
import OmniORB.Library.ChainTable
import OmniORB.Library.Transitions

/-!
# The object table as a hash table

`omniObjTable` of `omniInternal.cc`: the buckets, and the thresholds at which `resize` moves the
entries to more buckets or to less.
-/

namespace OmniORB

open Library

/-- `omniObjTableEntry`: where it is, and its key. -/
structure TableEntry where
  address : ℕ
  key : List UInt8
  deriving DecidableEq, Repr

/-- What has been done to the table. -/
inductive TableEvent where
  | added (entry : TableEntry)
  | removed (entry : TableEntry)
  deriving DecidableEq, Repr

/-- The data of `omniObjTable`; `objectTableSize` is the size of `objectTable`. `log` is what has been
done, the latest first. `failed` says that an `OMNIORB_ASSERT` was false, or that `objTblSizes` was
read beyond its end. -/
structure ObjTable where
  objectTable : ChainTable TableEntry
  objectTableSizeI : ℕ
  numObjectsInTable : UInt32
  maxNumObjects : UInt32
  minNumObjects : UInt32
  nextAddress : ℕ
  log : List TableEvent
  failed : Bool

namespace ObjTable

/-- `omni::hash` -/
def hash (key : List UInt8) : UInt32 :=
  key.foldl (fun n c => (n ^^^ c.toUInt32) * 0x1000193) 0x811c9dc5

def hashValue (key : List UInt8) : ℕ := (hash key).toNat

/-- `objTblSizes` -/
def objTblSizes : List ℤ :=
  [128 + 3, 1024 + 9, 8192 + 27, 32768 + 3, 65536 + 45, 131072 + 9, 262144 + 39, 524288 + 39,
    1048576 + 9, 2097152 + 5, 4194304 + 3, 8388608 + 33, 16777216 + 27, 33554432 + 9,
    67108864 + 71, 134217728 + 39, 268435456 + 9, 536870912 + 5, 1073741824 + 83, -1]

def tableSize (i : ℕ) : ℕ := (objTblSizes.getD i 0).toNat

/-- `attach`: the parameter `objectTableSize`, or the first of the sizes if it is zero. The index `i`
is what an ORB before this one left behind. -/
def attach (size : UInt32) (i : Fin 19) : ObjTable where
  objectTable := .empty (if size = 0 then tableSize 0 else size.toNat)
  objectTableSizeI := if size = 0 then 0 else i
  numObjectsInTable := 0
  maxNumObjects := if size = 0 then UInt32.ofNat (tableSize 0) * 2 / 3 else (1 : UInt32) <<< 31
  minNumObjects := 0
  nextAddress := 0
  log := []
  failed := false

/-- `OMNIORB_ASSERT` -/
def assert (t : ObjTable) (cond : Prop) [Decidable cond] : ObjTable :=
  { t with failed := t.failed || !decide cond }

/-- `resize`, with the new index. -/
def resizeTo (t : ObjTable) (i : ℕ) : ObjTable :=
  match objTblSizes[i]? with
  | none => { t with failed := true }
  | some newsizei =>
    if newsizei = -1 then { t with objectTableSizeI := i - 1, maxNumObjects := (1 : UInt32) <<< 31 }
    else
      { t with
        objectTable := t.objectTable.rehash TableEntry.key hashValue newsizei.toNat
        objectTableSizeI := i
        maxNumObjects := UInt32.ofNat newsizei.toNat * 2 / 3
        minNumObjects := if i = 0 then 0 else UInt32.ofNat (tableSize (i - 1) / 3) }

/-- `omniObjTable::resize` -/
def resize (t : ObjTable) : ObjTable :=
  let t := t.assert (t.maxNumObjects < t.numObjectsInTable ∨
    t.numObjectsInTable < t.minNumObjects ∧ 0 < t.objectTableSizeI)
  if t.maxNumObjects < t.numObjectsInTable then t.resizeTo (t.objectTableSizeI + 1)
  else if t.numObjectsInTable < t.minNumObjects ∧ 0 < t.objectTableSizeI then
    t.resizeTo (t.objectTableSizeI - 1)
  else t

/-- What `locate` and `locateActive` find, which then look at the state of the entry. -/
def locate (t : ObjTable) (key : List UInt8) : Option TableEntry :=
  t.objectTable.find TableEntry.key hashValue key

/-- `omniObjTable::newEntry` -/
def newEntry (t : ObjTable) (key : List UInt8) : ObjTable × Option TableEntry :=
  if (t.locate key).isSome then (t, none)
  else
    let entry : TableEntry := ⟨t.nextAddress, key⟩
    let t := { t with numObjectsInTable := t.numObjectsInTable + 1 }
    let t := if t.maxNumObjects < t.numObjectsInTable then t.resize else t
    ({ t with
        objectTable := t.objectTable.push TableEntry.key hashValue entry
        nextAddress := t.nextAddress + 1
        log := .added entry :: t.log }, some entry)

/-- `omniObjTableEntry::setDead`. If the entry is not in its bucket, an assertion fails. -/
def setDead (t : ObjTable) (entry : TableEntry) : Option ObjTable :=
  if entry ∈ t.objectTable.bucket (t.objectTable.place hashValue entry.key) then
    let t := { t with
      objectTable := t.objectTable.remove TableEntry.key hashValue entry
      numObjectsInTable := t.numObjectsInTable - 1
      log := .removed entry :: t.log }
    some (if t.numObjectsInTable < t.minNumObjects then t.resize else t)
  else none

end ObjTable

inductive TableOp where
  | newEntry (key : List UInt8)
  | setDead (entry : TableEntry)
  deriving DecidableEq, Repr

namespace ObjTable

def step (t : ObjTable) : TableOp → Option ObjTable
  | .newEntry key => some (t.newEntry key).1
  | .setDead entry => t.setDead entry

def entries (t : ObjTable) : List TableEntry := t.objectTable.entries

/-- The table is a map from the keys to the entries that were added and not removed. -/
structure Faithful (t : ObjTable) : Prop where
  pos : t.objectTable.size ≠ 0
  bucket : ∀ i, ∀ e ∈ t.objectTable.bucket i,
    i < t.objectTable.size ∧ i = (hash e.key).toNat % t.objectTable.size
  keys : (t.entries.map TableEntry.key).Nodup
  locate : ∀ key e, t.locate key = some e ↔
    e.key = key ∧ .added e ∈ t.log ∧ .removed e ∉ t.log
  resize : t.resize.entries.Perm t.entries
  asserts : t.failed = false

/-- The counter and the lower threshold fit the entries. -/
structure Counted (t : ObjTable) : Prop where
  count : t.numObjectsInTable.toNat = t.entries.length
  min_le : t.minNumObjects ≤ t.numObjectsInTable

variable {t t' : ObjTable}

/-! ### The sizes -/

lemma objTblSizes_spec : ∀ i < 19, objTblSizes[i]? = some (tableSize i : ℤ) ∧ 0 < tableSize i ∧
    tableSize i * 2 < 2 ^ 32 ∧ (i ≠ 0 → tableSize (i - 1) / 3 < tableSize i / 3) := by
  decide

lemma objTblSizes_end : objTblSizes[19]? = some (-1) := rfl

/-- The thresholds fit the size index. -/
structure Thresholds (t : ObjTable) : Prop where
  index : t.objectTableSizeI < 19
  min_eq : t.minNumObjects ≠ 0 →
    0 < t.objectTableSizeI ∧ t.minNumObjects.toNat = tableSize (t.objectTableSizeI - 1) / 3
  le_max : tableSize t.objectTableSizeI / 3 ≤ t.maxNumObjects.toNat

/-- What `resize` leaves as it is. -/
structure Resized (t t' : ObjTable) : Prop where
  ok : t'.objectTable.Ok TableEntry.key hashValue
  perm : t'.entries.Perm t.entries
  num : t'.numObjectsInTable = t.numObjectsInTable
  nextAddress : t'.nextAddress = t.nextAddress
  log : t'.log = t.log
  failed : t'.failed = t.failed
  thresholds : t'.Thresholds

lemma toNat_ofNat_lt {n : ℕ} (h : n < 2 ^ 32) : (UInt32.ofNat n).toNat = n := by
  rw [UInt32.toNat_ofNat', Nat.mod_eq_of_lt h]

lemma assert_of {cond : Prop} [Decidable cond] (h : cond) : t.assert cond = t := by
  rw [assert, decide_eq_true h]
  simp

/-- The new thresholds, for an index in the table. -/
lemma resizeTo_of_lt (hok : t.objectTable.Ok TableEntry.key hashValue) {i : ℕ} (hi : i < 19) :
    Resized t (t.resizeTo i) ∧
      (t.resizeTo i).minNumObjects.toNat = if i = 0 then 0 else tableSize (i - 1) / 3 := by
  obtain ⟨hsize, hpos, hlt, -⟩ := objTblSizes_spec i hi
  have hmin : (if i = 0 then 0 else UInt32.ofNat (tableSize (i - 1) / 3)).toNat =
      if i = 0 then 0 else tableSize (i - 1) / 3 := by
    split_ifs with h0
    · rfl
    · obtain ⟨-, -, hlt', -⟩ := objTblSizes_spec (i - 1) (by omega)
      exact toNat_ofNat_lt (by omega)
  have hne : (tableSize i : ℤ) ≠ -1 := by omega
  have heq : t.resizeTo i = { t with
      objectTable := t.objectTable.rehash TableEntry.key hashValue (tableSize i)
      objectTableSizeI := i
      maxNumObjects := UInt32.ofNat (tableSize i) * 2 / 3
      minNumObjects := if i = 0 then 0 else UInt32.ofNat (tableSize (i - 1) / 3) } := by
    rw [resizeTo, hsize]
    dsimp only
    rw [if_neg hne, Int.toNat_natCast]
  rw [heq]
  refine ⟨⟨hok.rehash hpos, ChainTable.perm_rehash _ hpos, rfl, rfl, rfl, rfl, hi, ?_, ?_⟩, hmin⟩
  · intro h0
    have hi0 : i ≠ 0 := by
      rintro rfl
      exact h0 rfl
    refine ⟨Nat.pos_of_ne_zero hi0, ?_⟩
    change (if i = 0 then (0 : UInt32) else _).toNat = _
    rw [hmin, if_neg hi0]
  · change tableSize i / 3 ≤ (UInt32.ofNat (tableSize i) * 2 / 3).toNat
    rw [UInt32.toNat_div, UInt32.toNat_mul, toNat_ofNat_lt (by omega)]
    change tableSize i / 3 ≤ tableSize i * 2 % 2 ^ 32 / 3
    rw [Nat.mod_eq_of_lt hlt]
    omega

lemma resizeTo_end (h : t.Thresholds) (hok : t.objectTable.Ok TableEntry.key hashValue)
    (hi : t.objectTableSizeI + 1 = 19) :
    Resized t (t.resizeTo 19) ∧ (t.resizeTo 19).minNumObjects = t.minNumObjects := by
  have heq : t.resizeTo 19 = { t with maxNumObjects := (1 : UInt32) <<< 31 } := by
    have h18 : t.objectTableSizeI = 18 := by omega
    rw [resizeTo, objTblSizes_end]
    dsimp only
    rw [if_pos rfl, h18]
  rw [heq]
  refine ⟨⟨hok, List.Perm.refl _, rfl, rfl, rfl, rfl, h.index, h.min_eq, ?_⟩, rfl⟩
  change tableSize t.objectTableSizeI / 3 ≤ 2 ^ 31
  obtain ⟨-, -, hlt, -⟩ := objTblSizes_spec _ h.index
  omega

/-- The lower threshold is below the upper one. -/
lemma Thresholds.min_le_max (h : t.Thresholds) :
    t.minNumObjects.toNat ≤ t.maxNumObjects.toNat := by
  by_cases h0 : t.minNumObjects = 0
  · rw [h0]
    exact Nat.zero_le _
  · obtain ⟨hpos, heq⟩ := h.min_eq h0
    obtain ⟨-, -, -, hmono⟩ := objTblSizes_spec _ h.index
    exact heq.trans_le ((hmono hpos.ne').le.trans h.le_max)

/-- Where it is called, `resize` moves the entries, and has the lower threshold below their number. -/
lemma resize_spec (h : t.Thresholds) (hok : t.objectTable.Ok TableEntry.key hashValue)
    (hcall : t.maxNumObjects < t.numObjectsInTable ∨ t.numObjectsInTable < t.minNumObjects) :
    Resized t t.resize ∧
      ((t.maxNumObjects < t.numObjectsInTable ∨
          t.numObjectsInTable.toNat + 1 = t.minNumObjects.toNat) →
        t.resize.minNumObjects ≤ t.numObjectsInTable) := by
  have hle := h.min_le_max
  have hmax := h.le_max
  by_cases hgrow : t.maxNumObjects < t.numObjectsInTable
  · -- more entries than the upper threshold
    have hlt : t.maxNumObjects.toNat < t.numObjectsInTable.toNat := hgrow
    have heq : t.resize = t.resizeTo (t.objectTableSizeI + 1) := by
      rw [resize, assert_of (.inl hgrow), if_pos hgrow]
    rw [heq]
    by_cases hi : t.objectTableSizeI + 1 < 19
    · obtain ⟨hresized, hmin⟩ := resizeTo_of_lt hok hi
      refine ⟨hresized, fun _ => ?_⟩
      rw [UInt32.le_iff_toNat_le, hmin, if_neg (Nat.succ_ne_zero _), Nat.add_sub_cancel]
      omega
    · have hend : t.objectTableSizeI + 1 = 19 := by
        have := h.index
        omega
      obtain ⟨hresized, hmin⟩ := resizeTo_end h hok hend
      rw [hend]
      refine ⟨hresized, fun _ => ?_⟩
      rw [UInt32.le_iff_toNat_le, hmin]
      omega
  · -- less than the lower one
    have hless : t.numObjectsInTable < t.minNumObjects := hcall.resolve_left hgrow
    have hlt : t.numObjectsInTable.toNat < t.minNumObjects.toNat := hless
    have h0 : t.minNumObjects ≠ 0 := by
      intro h0
      rw [h0] at hlt
      exact absurd hlt (Nat.not_lt_zero _)
    obtain ⟨hpos, hmineq⟩ := h.min_eq h0
    have heq : t.resize = t.resizeTo (t.objectTableSizeI - 1) := by
      rw [resize, assert_of (.inr ⟨hless, hpos⟩), if_neg hgrow, if_pos ⟨hless, hpos⟩]
    have hi : t.objectTableSizeI - 1 < 19 := by
      have := h.index
      omega
    obtain ⟨hresized, hmin⟩ := resizeTo_of_lt hok hi
    obtain ⟨-, -, -, hmono⟩ := objTblSizes_spec _ hi
    rw [heq]
    refine ⟨hresized, fun hone => ?_⟩
    have hone : t.numObjectsInTable.toNat + 1 = t.minNumObjects.toNat := hone.resolve_left hgrow
    rw [UInt32.le_iff_toNat_le, hmin]
    split_ifs with hzero
    · exact Nat.zero_le _
    · have := hmono hzero
      omega

/-- `resize` moves the entries, wherever it is called. -/
lemma perm_resize (h : t.Thresholds) (hok : t.objectTable.Ok TableEntry.key hashValue) :
    t.resize.entries.Perm t.entries := by
  by_cases hcall : t.maxNumObjects < t.numObjectsInTable ∨ t.numObjectsInTable < t.minNumObjects
  · exact (resize_spec h hok hcall).1.perm
  · have heq : t.resize.objectTable = t.objectTable := by
      rw [resize]
      split_ifs with hgrow hless
      · exact absurd (.inl hgrow) hcall
      · exact absurd (.inr hless.1) hcall
      · rfl
    rw [entries, heq]
    exact List.Perm.refl _

/-! ### Steps -/

/-- What holds of the table in every run. -/
structure Inv (t : ObjTable) : Prop where
  ok : t.objectTable.Ok TableEntry.key hashValue
  thresholds : t.Thresholds
  asserts : t.failed = false
  count : t.numObjectsInTable.toNat = t.entries.length % 2 ^ 32
  live : ∀ e, e ∈ t.entries ↔ .added e ∈ t.log ∧ .removed e ∉ t.log
  fresh : ∀ e, .added e ∈ t.log ∨ .removed e ∈ t.log → e.address < t.nextAddress

lemma inv_attach (size : UInt32) (i : Fin 19) : (attach size i).Inv where
  ok := by
    refine ⟨ChainTable.placed_empty ?_, ?_⟩
    · split_ifs with h0
      · decide
      · exact Nat.pos_of_ne_zero fun h => h0 (UInt32.toNat_inj.mp h)
    · change ((ChainTable.empty _).entries.map TableEntry.key).Nodup
      rw [ChainTable.entries_empty]
      exact List.nodup_nil
  thresholds := by
    refine ⟨?_, fun h => absurd rfl h, ?_⟩
    · change (if size = 0 then 0 else (i : ℕ)) < 19
      split_ifs
      · decide
      · exact i.isLt
    · change tableSize (if size = 0 then 0 else (i : ℕ)) / 3 ≤
        (if size = 0 then UInt32.ofNat (tableSize 0) * 2 / 3 else (1 : UInt32) <<< 31).toNat
      split_ifs
      · decide
      · obtain ⟨-, -, hlt, -⟩ := objTblSizes_spec i i.isLt
        change tableSize i / 3 ≤ 2 ^ 31
        omega
  asserts := rfl
  count := by
    change 0 = (ChainTable.empty _).entries.length % 2 ^ 32
    rw [ChainTable.entries_empty]
    rfl
  live e := by
    change e ∈ (ChainTable.empty _).entries ↔ _
    rw [ChainTable.entries_empty]
    exact iff_of_false List.not_mem_nil fun h => absurd h.1 List.not_mem_nil
  fresh e h := by
    rcases h with h | h
    · exact absurd h List.not_mem_nil
    · exact absurd h List.not_mem_nil

/-- An entry is added, with the table resized before. -/
lemma Inv.push (h : t.Inv) {key : List UInt8} (hkey : key ∉ t.entries.map TableEntry.key)
    {u : ObjTable} (hu : Resized { t with numObjectsInTable := t.numObjectsInTable + 1 } u) :
    Inv { u with
      objectTable := u.objectTable.push TableEntry.key hashValue ⟨u.nextAddress, key⟩
      nextAddress := u.nextAddress + 1
      log := .added ⟨u.nextAddress, key⟩ :: u.log } := by
  have hperm : (u.objectTable.push TableEntry.key hashValue ⟨u.nextAddress, key⟩).entries.Perm
      (⟨t.nextAddress, key⟩ :: t.entries) := by
    have hpush := ChainTable.perm_push hu.ok.toPlaced ⟨u.nextAddress, key⟩
    rw [hu.nextAddress] at hpush ⊢
    exact hpush.trans (hu.perm.cons _)
  have hlog : u.log = t.log := hu.log
  have hnext : u.nextAddress = t.nextAddress := hu.nextAddress
  refine ⟨hu.ok.push ?_, ⟨hu.thresholds.index, hu.thresholds.min_eq, hu.thresholds.le_max⟩,
    hu.failed.trans h.asserts, ?_, fun e => ?_, fun e he => ?_⟩
  · intro hmem
    exact hkey ((hu.perm.map TableEntry.key).mem_iff.mp hmem)
  · change u.numObjectsInTable.toNat =
      (u.objectTable.push TableEntry.key hashValue ⟨u.nextAddress, key⟩).entries.length % 2 ^ 32
    have hcount := h.count
    rw [hperm.length_eq, List.length_cons, hu.num, UInt32.toNat_add, hcount]
    change (_ + 1) % _ = _
    omega
  · change e ∈ (u.objectTable.push TableEntry.key hashValue ⟨u.nextAddress, key⟩).entries ↔
      TableEvent.added e ∈ TableEvent.added ⟨u.nextAddress, key⟩ :: u.log ∧
        TableEvent.removed e ∉ TableEvent.added ⟨u.nextAddress, key⟩ :: u.log
    rw [hperm.mem_iff, hlog, hnext, List.mem_cons, List.mem_cons, List.mem_cons, h.live]
    constructor
    · rintro (rfl | ⟨hadded, hremoved⟩)
      · refine ⟨.inl rfl, ?_⟩
        rintro (heq | hremoved)
        · cases heq
        · exact absurd (h.fresh _ (.inr hremoved)) (Nat.lt_irrefl _)
      · refine ⟨.inr hadded, ?_⟩
        rintro (heq | hremoved')
        · cases heq
        · exact hremoved hremoved'
    · rintro ⟨heq | hadded, hremoved⟩
      · exact .inl (TableEvent.added.inj heq)
      · exact .inr ⟨hadded, fun hr => hremoved (.inr hr)⟩
  · change e.address < u.nextAddress + 1
    change TableEvent.added e ∈ TableEvent.added ⟨u.nextAddress, key⟩ :: u.log ∨
      TableEvent.removed e ∈ TableEvent.added ⟨u.nextAddress, key⟩ :: u.log at he
    rw [hlog, hnext, List.mem_cons, List.mem_cons] at he
    rw [hnext]
    rcases he with (heq | he) | (heq | he)
    · rw [TableEvent.added.inj heq]
      exact Nat.lt_succ_self _
    · exact Nat.lt_succ_of_lt (h.fresh e (.inl he))
    · cases heq
    · exact Nat.lt_succ_of_lt (h.fresh e (.inr he))

lemma Resized.refl (h : t.Inv) : Resized t t :=
  ⟨h.ok, List.Perm.refl _, rfl, rfl, rfl, rfl, h.thresholds⟩

lemma Inv.resized (h : t.Inv) (hu : Resized t t') : t'.Inv where
  ok := hu.ok
  thresholds := hu.thresholds
  asserts := hu.failed.trans h.asserts
  count := by
    rw [hu.num, h.count, hu.perm.length_eq]
  live e := by
    rw [hu.perm.mem_iff, hu.log]
    exact h.live e
  fresh e he := by
    rw [hu.log] at he
    rw [hu.nextAddress]
    exact h.fresh e he

/-- `newEntry` before it adds the entry. -/
def grown (t : ObjTable) : ObjTable :=
  let t := { t with numObjectsInTable := t.numObjectsInTable + 1 }
  if t.maxNumObjects < t.numObjectsInTable then t.resize else t

lemma Inv.grown (h : t.Inv) :
    Resized { t with numObjectsInTable := t.numObjectsInTable + 1 } t.grown := by
  rw [ObjTable.grown]
  dsimp only
  have hthresholds : Thresholds { t with numObjectsInTable := t.numObjectsInTable + 1 } :=
    ⟨h.thresholds.index, h.thresholds.min_eq, h.thresholds.le_max⟩
  split_ifs with hgrow
  · exact (resize_spec hthresholds h.ok (.inl hgrow)).1
  · exact ⟨h.ok, List.Perm.refl _, rfl, rfl, rfl, rfl, hthresholds⟩

lemma newEntry_of_none {key : List UInt8} (hnone : t.locate key = none) :
    (t.newEntry key).1 = { t.grown with
      objectTable := t.grown.objectTable.push TableEntry.key hashValue ⟨t.nextAddress, key⟩
      nextAddress := t.grown.nextAddress + 1
      log := .added ⟨t.nextAddress, key⟩ :: t.grown.log } := by
  rw [newEntry, hnone]
  rfl

lemma Inv.notMem_keys (h : t.Inv) {key : List UInt8} (hnone : t.locate key = none) :
    key ∉ t.entries.map TableEntry.key := by
  intro hmem
  obtain ⟨e, he, rfl⟩ := List.mem_map.mp hmem
  have hsome : t.locate e.key = some e := h.ok.find_eq_some.mpr ⟨he, rfl⟩
  rw [hnone] at hsome
  cases hsome

/-- What has been added, and how many entries there are then. -/
lemma Inv.newEntry_none (h : t.Inv) {key : List UInt8} (hnone : t.locate key = none) :
    (t.newEntry key).1.Inv ∧ (t.newEntry key).1.entries.Perm (⟨t.nextAddress, key⟩ :: t.entries) ∧
      (t.newEntry key).1.numObjectsInTable = t.numObjectsInTable + 1 ∧
      (t.newEntry key).1.minNumObjects = t.grown.minNumObjects := by
  have hgrown := h.grown
  have hnext : t.grown.nextAddress = t.nextAddress := hgrown.nextAddress
  have hinv := h.push (h.notMem_keys hnone) hgrown
  rw [hnext] at hinv
  rw [newEntry_of_none hnone, hnext]
  refine ⟨hinv, ?_, hgrown.num, rfl⟩
  exact (ChainTable.perm_push hgrown.ok.toPlaced _).trans (hgrown.perm.cons _)

lemma Inv.newEntry (h : t.Inv) (key : List UInt8) : (t.newEntry key).1.Inv := by
  rcases hfind : t.locate key with - | e
  · exact (h.newEntry_none hfind).1
  · rw [ObjTable.newEntry, hfind]
    exact h

/-- `setDead` before the table may be resized. -/
def shrunk (t : ObjTable) (e : TableEntry) : ObjTable := { t with
  objectTable := t.objectTable.remove TableEntry.key hashValue e
  numObjectsInTable := t.numObjectsInTable - 1
  log := .removed e :: t.log }

lemma toNat_pred {n : UInt32} {m : ℕ} (h : n.toNat = (m + 1) % 2 ^ 32) :
    (n - 1).toNat = m % 2 ^ 32 := by
  rw [UInt32.toNat_sub, h]
  change (4294967296 - 1 + (m + 1) % 4294967296) % 4294967296 = m % 4294967296
  omega

lemma Inv.shrunk (h : t.Inv) {e : TableEntry} (he : e ∈ t.entries) : (t.shrunk e).Inv := by
  have hperm : t.entries.Perm (e :: (t.shrunk e).entries) :=
    ChainTable.perm_remove h.ok.toPlaced he
  have hnodup : (e :: (t.shrunk e).entries).Nodup :=
    hperm.nodup_iff.mp (h.ok.nodup.of_map _)
  refine ⟨h.ok.remove he, ⟨h.thresholds.index, h.thresholds.min_eq, h.thresholds.le_max⟩,
    h.asserts, ?_, fun e' => ?_, fun e' he' => ?_⟩
  · have hcount := h.count
    rw [hperm.length_eq, List.length_cons] at hcount
    exact toNat_pred hcount
  · change e' ∈ (t.shrunk e).entries ↔ TableEvent.added e' ∈ TableEvent.removed e :: t.log ∧
      TableEvent.removed e' ∉ TableEvent.removed e :: t.log
    have hlive := h.live e'
    rw [hperm.mem_iff, List.mem_cons] at hlive
    rw [List.mem_cons, List.mem_cons]
    constructor
    · intro hmem
      obtain ⟨hadded, hremoved⟩ := hlive.mp (.inr hmem)
      refine ⟨.inr hadded, ?_⟩
      rintro (heq | hr)
      · rw [TableEvent.removed.inj heq] at hmem
        exact (List.nodup_cons.mp hnodup).1 hmem
      · exact hremoved hr
    · rintro ⟨heq | hadded, hremoved⟩
      · cases heq
      · refine (hlive.mpr ⟨hadded, fun hr => hremoved (.inr hr)⟩).resolve_left ?_
        rintro rfl
        exact hremoved (.inl rfl)
  · change TableEvent.added e' ∈ TableEvent.removed e :: t.log ∨
      TableEvent.removed e' ∈ TableEvent.removed e :: t.log at he'
    rw [List.mem_cons, List.mem_cons] at he'
    rcases he' with (heq | he') | (heq | he')
    · cases heq
    · exact h.fresh e' (.inl he')
    · rw [TableEvent.removed.inj heq]
      exact h.fresh e (.inl ((h.live e).mp he).1)
    · exact h.fresh e' (.inr he')

lemma setDead_eq_some {e : TableEntry} (hs : t.setDead e = some t') :
    e ∈ t.objectTable.bucket (t.objectTable.place hashValue e.key) ∧
      t' = if (t.shrunk e).numObjectsInTable < (t.shrunk e).minNumObjects then (t.shrunk e).resize
        else t.shrunk e := by
  rw [setDead] at hs
  split_ifs at hs with he
  exact ⟨he, (Option.some.inj hs).symm⟩

lemma Inv.setDead (h : t.Inv) {e : TableEntry} (hs : t.setDead e = some t') : t'.Inv := by
  obtain ⟨he, rfl⟩ := setDead_eq_some hs
  have hshrunk := h.shrunk (h.ok.mem_entries.mpr he)
  split_ifs with hless
  · exact hshrunk.resized (resize_spec hshrunk.thresholds hshrunk.ok (.inr hless)).1
  · exact hshrunk

lemma Inv.step (h : t.Inv) {op : TableOp} (hs : t.step op = some t') : t'.Inv := by
  cases op with
  | newEntry key =>
    obtain rfl := Option.some.inj hs
    exact h.newEntry key
  | setDead e => exact h.setDead hs

lemma Inv.faithful (h : t.Inv) : t.Faithful where
  pos := h.ok.pos.ne'
  bucket i e he := by
    have hplace := h.ok.place i e he
    exact ⟨hplace ▸ h.ok.place_lt e.key, hplace.symm⟩
  keys := h.ok.nodup
  locate key e := by
    refine h.ok.find_eq_some.trans ?_
    rw [and_comm, ← h.live e]
    rfl
  resize := perm_resize h.thresholds h.ok
  asserts := h.asserts

/-! ### Counting -/

lemma Inv.counted (h : t.Inv) (hlt : t.entries.length < 2 ^ 32)
    (hmin : t.minNumObjects ≤ t.numObjectsInTable) : t.Counted where
  count := by
    rw [h.count, Nat.mod_eq_of_lt hlt]
  min_le := hmin

lemma Inv.min_le_newEntry (h : t.Inv) (hmin : t.minNumObjects ≤ t.numObjectsInTable)
    (hlt : t.entries.length + 1 < 2 ^ 32) {key : List UInt8} (hnone : t.locate key = none) :
    (t.newEntry key).1.minNumObjects ≤ (t.newEntry key).1.numObjectsInTable := by
  obtain ⟨-, -, hnum, hmineq⟩ := h.newEntry_none hnone
  rw [hnum, hmineq]
  have hthresholds : Thresholds { t with numObjectsInTable := t.numObjectsInTable + 1 } :=
    ⟨h.thresholds.index, h.thresholds.min_eq, h.thresholds.le_max⟩
  rw [ObjTable.grown]
  dsimp only
  split_ifs with hgrow
  · exact (resize_spec hthresholds h.ok (.inl hgrow)).2 (.inl hgrow)
  · have hcount := h.count
    have hle : t.minNumObjects.toNat ≤ t.numObjectsInTable.toNat := hmin
    change t.minNumObjects.toNat ≤ (t.numObjectsInTable + 1).toNat
    rw [UInt32.toNat_add]
    change _ ≤ (_ + 1) % _
    omega

lemma Inv.min_le_setDead (h : t.Inv) (hmin : t.minNumObjects ≤ t.numObjectsInTable)
    (hlt : t.entries.length < 2 ^ 32) {e : TableEntry} (hs : t.setDead e = some t') :
    t'.minNumObjects ≤ t'.numObjectsInTable := by
  obtain ⟨he, rfl⟩ := setDead_eq_some hs
  have hmem := h.ok.mem_entries.mpr he
  have hshrunk := h.shrunk hmem
  have hperm : t.entries.Perm (e :: (t.shrunk e).entries) :=
    ChainTable.perm_remove h.ok.toPlaced hmem
  have hlength := hperm.length_eq
  rw [List.length_cons] at hlength
  have hcount := h.count
  have hcount' := hshrunk.count
  have hle : t.minNumObjects.toNat ≤ t.numObjectsInTable.toNat := hmin
  split_ifs with hless
  · have hresize := resize_spec hshrunk.thresholds hshrunk.ok (.inr hless)
    have hless' : (t.shrunk e).numObjectsInTable.toNat < t.minNumObjects.toNat := hless
    rw [hresize.1.num]
    refine hresize.2 (.inr ?_)
    change _ = t.minNumObjects.toNat
    omega
  · exact UInt32.not_lt.mp hless

/-- Nothing but a counter that is at its end makes an entry count for nothing. -/
def Fits (t : ObjTable) (_ : TableOp) : Prop := t.entries.length + 1 < 2 ^ 32

lemma counted_of_fits {size : UInt32} {i : Fin 19} (h : ReachedBy step Fits (attach size i) t) :
    t.Inv ∧ t.entries.length < 2 ^ 32 ∧ t.minNumObjects ≤ t.numObjectsInTable := by
  refine h.invariant (P := fun t => t.Inv ∧ t.entries.length < 2 ^ 32 ∧
    t.minNumObjects ≤ t.numObjectsInTable) ⟨inv_attach size i, ?_, UInt32.le_refl 0⟩ ?_
  · rw [entries]
    change (ChainTable.empty _).entries.length < 2 ^ 32
    rw [ChainTable.entries_empty]
    decide
  · rintro t op t' ⟨hinv, hlt, hmin⟩ hfits hs
    refine ⟨hinv.step hs, ?_⟩
    cases op with
    | newEntry key =>
      obtain rfl := Option.some.inj hs
      rcases hfind : t.locate key with - | e
      · refine ⟨?_, hinv.min_le_newEntry hmin hfits hfind⟩
        rw [(hinv.newEntry_none hfind).2.1.length_eq]
        exact hfits
      · have heq : (t.newEntry key).1 = t := by
          rw [newEntry, hfind]
          rfl
        rw [heq]
        exact ⟨hlt, hmin⟩
    | setDead e =>
      refine ⟨?_, hinv.min_le_setDead hmin hlt hs⟩
      obtain ⟨he, rfl⟩ := setDead_eq_some hs
      have hmem := hinv.ok.mem_entries.mpr he
      have hshrunk := hinv.shrunk hmem
      have hperm : t.entries.Perm (e :: (t.shrunk e).entries) :=
        ChainTable.perm_remove hinv.ok.toPlaced hmem
      have hlength := hperm.length_eq
      rw [List.length_cons] at hlength
      split_ifs with hless
      · rw [(resize_spec hshrunk.thresholds hshrunk.ok (.inr hless)).1.perm.length_eq]
        omega
      · omega

end ObjTable

open ObjTable in
/-- After any calls the table is a map from the keys to the entries that were added and not removed.
As long as there are less than `2 ^ 32` of them they are counted, and there are no less than the lower
threshold. -/
theorem object_table_faithful {size : UInt32} {i : Fin 19} {t : ObjTable}
    (h : ReachedBy step (fun _ _ => True) (attach size i) t) :
    t.Faithful ∧ (ReachedBy step ObjTable.Fits (attach size i) t → t.Counted) := by
  have hinv : t.Inv := h.invariant (inv_attach size i) fun _ _ _ hinv _ hs => hinv.step hs
  refine ⟨hinv.faithful, fun hfits => ?_⟩
  obtain ⟨-, hlt, hmin⟩ := counted_of_fits hfits
  exact hinv.counted hlt hmin

open ObjTable in
/-- A table with one entry. -/
theorem object_table_faithful_one :
    ((attach 0 0).newEntry [0x61]).1.Faithful ∧ ((attach 0 0).newEntry [0x61]).1.Counted := by
  have hs : step (attach 0 0) (.newEntry [0x61]) = some ((attach 0 0).newEntry [0x61]).1 := rfl
  have hfits : ObjTable.Fits (attach 0 0) (.newEntry [0x61]) := by
    rw [ObjTable.Fits, entries]
    change (ChainTable.empty _).entries.length + 1 < 2 ^ 32
    rw [ChainTable.entries_empty]
    decide
  obtain ⟨hfaithful, hcounted⟩ := object_table_faithful (ReachedBy.start.next trivial hs)
  exact ⟨hfaithful, hcounted (ReachedBy.start.next hfits hs)⟩

namespace ObjTable

lemma ulongOctets_injOn {m n : ℕ} (hm : m < 2 ^ 32) (hn : n < 2 ^ 32)
    (h : ulongOctets m = ulongOctets n) : m = n := by
  have hvalue := ulongValue_ulongOctets m
  rw [ulongOctets, ulongOctets] at h
  obtain ⟨h0, h1, h2, h3, -⟩ : _ ∧ _ ∧ _ ∧ _ ∧ True := by simpa using h
  rw [h0, h1, h2, h3, ulongValue_ulongOctets, Nat.mod_eq_of_lt hm, Nat.mod_eq_of_lt hn] at hvalue
  exact hvalue.symm

/-- Any number of entries may be in the table, of keys that are octets of numbers. -/
lemma exists_reached {n : ℕ} (hn : n ≤ 2 ^ 32) :
    ∃ t, ReachedBy step (fun _ _ => True) (attach 0 0) t ∧ t.entries.length = n ∧
      ∀ e ∈ t.entries, ∃ i < n, e.key = ulongOctets i := by
  induction n with
  | zero =>
    have hnil : (attach 0 0).entries = [] := ChainTable.entries_empty _
    refine ⟨attach 0 0, .start, by rw [hnil]; rfl, fun e he => ?_⟩
    rw [hnil] at he
    exact absurd he List.not_mem_nil
  | succ n ih =>
    obtain ⟨t, ht, hlength, hkeys⟩ := ih (by omega)
    have hinv : t.Inv := ht.invariant (inv_attach 0 0) fun _ _ _ hinv _ hs => hinv.step hs
    have hnone : t.locate (ulongOctets n) = none := by
      rcases hfind : t.locate (ulongOctets n) with - | e
      · rfl
      · obtain ⟨he, hkey⟩ := hinv.ok.find_eq_some.mp hfind
        obtain ⟨i, hi, hkey'⟩ := hkeys e he
        have heq := ulongOctets_injOn (by omega) (by omega) (hkey'.symm.trans hkey)
        omega
    obtain ⟨-, hperm, -⟩ := hinv.newEntry_none hnone
    refine ⟨_, ht.next (a := .newEntry (ulongOctets n)) trivial rfl, ?_, fun e he => ?_⟩
    · rw [hperm.length_eq, List.length_cons, hlength]
    · rcases List.mem_cons.mp (hperm.mem_iff.mp he) with rfl | he
      · exact ⟨n, Nat.lt_succ_self n, rfl⟩
      · obtain ⟨i, hi, hkey⟩ := hkeys e he
        exact ⟨i, Nat.lt_succ_of_lt hi, hkey⟩

end ObjTable

open ObjTable in
/-- With `2 ^ 32` entries in the table, `numObjectsInTable` is zero. -/
theorem object_table_count_wraps :
    ¬∀ t, ReachedBy step (fun _ _ => True) (attach 0 0) t →
      t.numObjectsInTable.toNat = t.entries.length := by
  intro h
  obtain ⟨t, ht, hlength, -⟩ := exists_reached (n := 2 ^ 32) (Nat.le_refl _)
  have hinv : t.Inv := ht.invariant (inv_attach 0 0) fun _ _ _ hinv _ hs => hinv.step hs
  have hcount := hinv.count
  rw [h t ht, hlength] at hcount
  exact absurd hcount (by decide)

end OmniORB
