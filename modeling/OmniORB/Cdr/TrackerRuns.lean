import OmniORB.Cdr.ValueTrackers

/-!
# Runs of the value trackers

A tracker answers each call from what was recorded before, in tables of any size. The output tracker
does so as long as an entry that is added while the table grows has the same bucket in both tables.
-/

namespace OmniORB

open Library

namespace Tracker

variable {α : Type} {t : Tracker α} {hash : α → ℕ} {n : ℕ}

/-! ### Growth -/

lemma add_of_grownSize_none (h : t.grownSize = none) : (t.add hash).table = t.table := by
  rw [grownSize] at h
  simp only [add]
  split_ifs at h ⊢
  · rw [resizeTable]
    simp only [h]
  · rfl

lemma add_of_grownSize_some (h : t.grownSize = some n) :
    (t.add hash).table = t.table.rehash hash id n := by
  rw [grownSize] at h
  split_ifs at h with hlimit
  simp only [add, if_pos hlimit]
  rw [resizeTable]
  simp only [h]

lemma pos_of_grownSize (h : t.grownSize = some n) : 0 < n := by
  rw [grownSize] at h
  split_ifs at h
  have hpos : ∀ m ∈ trackerSizes, 0 < m := by decide
  exact hpos n (List.mem_of_getElem? h)

/-- Growing moves the entries, and loses none. -/
lemma placed_add (h : t.table.Placed hash id) : (t.add hash).table.Placed hash id := by
  cases hg : t.grownSize with
  | none =>
    rw [add_of_grownSize_none hg]
    exact h
  | some n =>
    rw [add_of_grownSize_some hg]
    exact ChainTable.placed_rehash _ (pos_of_grownSize hg)

lemma perm_add : (t.add hash).table.entries.Perm t.table.entries := by
  cases hg : t.grownSize with
  | none => rw [add_of_grownSize_none hg]
  | some n =>
    rw [add_of_grownSize_some hg]
    exact ChainTable.perm_rehash _ (pos_of_grownSize hg)

lemma placed_initial : (initial : Tracker α).table.Placed hash id :=
  ChainTable.placed_empty (by decide)

end Tracker

lemma storedPosition_eq {p : ℤ} (h0 : 0 ≤ p) (h : p < 2 ^ 31) : storedPosition p = p := by
  apply Int.bmod_eq_of_le
  · norm_num
    omega
  · norm_num at h ⊢
    omega

/-! ### Output -/

/-- The position that was given for a key first. -/
def firstPosition : List OutputCall → OutputKey → Option ℤ
  | [], _ => none
  | c :: h, k =>
    match firstPosition h k with
    | some p => some p
    | none => if c.key = k then some c.current else none

namespace OutputValueTracker

variable {hash : OutputKey → ℕ} {t : OutputValueTracker} {h : List OutputCall} {c : OutputCall}

/-- A new entry has a position that can be stored, and a bucket that growth does not change. -/
def Meets (t : OutputValueTracker) (c : OutputCall) : Prop :=
  find t c = none →
    (0 ≤ c.current ∧ c.current < 2 ^ 31) ∧
      ∀ n, t.grownSize = some n → c.hashval % n = c.hashval % t.table.size

/-- Every call of a history meets the condition. -/
def AllMeet : List OutputCall → Prop
  | [] => True
  | c :: h => Meets (run h) c ∧ AllMeet h

/-- Each entry is in its bucket, and each call gets the first position of its key, or `-1`. -/
structure Faithful (hash : OutputKey → ℕ) (t : OutputValueTracker) (h : List OutputCall) :
    Prop where
  inBucket : ∀ i, ∀ e ∈ t.table.bucket i, e.hashbase % t.table.size = i
  answers : ∀ c, c.hashval = hash c.key → (call t c).2 = (firstPosition h c.key).getD (-1)

/-- The entries are those of a history. -/
structure Holds (hash : OutputKey → ℕ) (t : OutputValueTracker) (h : List OutputCall) :
    Prop where
  placed : t.table.Placed OutputTableEntry.hashbase id
  hashes : ∀ e ∈ t.table.entries, e.hashbase = hash e.key
  entries : ∀ k p, (∃ e ∈ t.table.entries, e.key = k ∧ e.position = p) ↔ firstPosition h k = some p

lemma isFor_iff {e : OutputTableEntry} (hc : c.hashval = hash c.key)
    (he : e.hashbase = hash e.key) : c.isFor e = true ↔ e.key = c.key := by
  cases c with
  | addRepoIds ids hashval current =>
    simp only [OutputCall.isFor, Bool.and_eq_true, decide_eq_true_eq, OutputCall.key]
    refine and_iff_left_of_imp fun hkey => ?_
    rw [he, hkey]
    exact hc.symm
  | addValue => simp [OutputCall.isFor]
  | addRepoId => simp [OutputCall.isFor]

/-- A call finds what was recorded first. -/
lemma Holds.find (ht : Holds hash t h) (hc : c.hashval = hash c.key) :
    (find t c).map OutputTableEntry.position = firstPosition h c.key := by
  cases hf : OutputValueTracker.find t c with
  | some e =>
    have hmem : e ∈ t.table.bucket (c.hashval % t.table.size) := List.mem_of_find?_eq_some hf
    have hplace := ht.placed.place _ e hmem
    have hentry : e ∈ t.table.entries := by
      rw [ht.placed.mem_entries, hplace]
      exact hmem
    have hfor := List.find?_some hf
    rw [isFor_iff hc (ht.hashes e hentry)] at hfor
    exact ((ht.entries c.key e.position).mp ⟨e, hentry, hfor, rfl⟩).symm
  | none =>
    cases hfirst : firstPosition h c.key with
    | none => rfl
    | some p =>
      obtain ⟨e, hentry, hkey, -⟩ := (ht.entries c.key p).mpr hfirst
      have hbase := ht.hashes e hentry
      have hmem := ht.placed.mem_entries.mp hentry
      have hplace : t.table.place id e.hashbase = c.hashval % t.table.size := by
        rw [hbase, hkey, ← hc]
        rfl
      rw [hplace] at hmem
      rw [OutputValueTracker.find, List.find?_eq_none] at hf
      exact absurd ((isFor_iff hc hbase).mpr hkey) (hf e hmem)

lemma holds_initial : Holds hash .initial [] where
  placed := Tracker.placed_initial
  hashes := by
    rw [Tracker.initial, ChainTable.entries_empty]
    rintro _ ⟨⟩
  entries := by
    intro k p
    rw [Tracker.initial, ChainTable.entries_empty]
    simp [firstPosition]

/-- The table and the bucket that a new entry goes to. -/
lemma Holds.place_entry (hm : ∀ n, t.grownSize = some n → c.hashval % n = c.hashval % t.table.size) :
    (t.add OutputTableEntry.hashbase).table.place id c.entry.hashbase
      = c.hashval % t.table.size := by
  rw [ChainTable.place]
  cases hg : t.grownSize with
  | none =>
    rw [Tracker.add_of_grownSize_none hg]
    rfl
  | some n =>
    rw [Tracker.add_of_grownSize_some hg, ChainTable.size_rehash]
    exact hm n hg

/-- A call that meets the condition records its key. -/
theorem Holds.call (ht : Holds hash t h) (hc : c.hashval = hash c.key) (hm : Meets t c) :
    Holds hash (call t c).1 (c :: h) := by
  have hfound := ht.find hc
  cases hf : OutputValueTracker.find t c with
  | some e =>
    rw [hf, Option.map_some] at hfound
    simp only [OutputValueTracker.call, hf]
    refine ⟨ht.placed, ht.hashes, fun k p => ?_⟩
    rw [ht.entries k p, firstPosition]
    cases hk : firstPosition h k with
    | some q => rfl
    | none =>
      have hne : c.key ≠ k := by
        rintro rfl
        rw [hk] at hfound
        cases hfound
      simp [hne]
  | none =>
    obtain ⟨⟨h0, hbound⟩, hgrown⟩ := hm hf
    rw [hf, Option.map_none] at hfound
    have hplaced : (t.add OutputTableEntry.hashbase).table.Placed OutputTableEntry.hashbase id :=
      Tracker.placed_add ht.placed
    have hput : (t.add OutputTableEntry.hashbase).table.putAt (c.hashval % t.table.size) c.entry
        = (t.add OutputTableEntry.hashbase).table.push OutputTableEntry.hashbase id c.entry :=
      ChainTable.putAt_of_place (Holds.place_entry hgrown)
    have hmem : ∀ e, e ∈ ((t.add OutputTableEntry.hashbase).table.push
        OutputTableEntry.hashbase id c.entry).entries ↔ e = c.entry ∨ e ∈ t.table.entries := by
      intro e
      rw [(ChainTable.perm_push hplaced c.entry).mem_iff, List.mem_cons, Tracker.perm_add.mem_iff]
    simp only [OutputValueTracker.call, hf, hput]
    refine ⟨hplaced.push _, ?_, fun k p => ?_⟩
    · intro e he
      rcases (hmem e).mp he with rfl | he
      · exact hc
      · exact ht.hashes e he
    · rw [firstPosition]
      simp only [hmem]
      have hold := ht.entries k p
      by_cases hk : c.key = k
      · rw [← hk] at hold ⊢
        rw [← hfound] at hold
        simp only [← hfound, if_true]
        constructor
        · rintro ⟨e, rfl | he, hkey, hpos⟩
          · rw [← hpos, OutputCall.entry, storedPosition_eq h0 hbound]
          · have hnone := hold.mp ⟨e, he, hkey, hpos⟩
            cases hnone
        · rintro ⟨⟩
          exact ⟨c.entry, .inl rfl, rfl, storedPosition_eq h0 hbound⟩
      · rw [if_neg hk]
        have hsame : (match firstPosition h k with
            | some p => some p
            | none => none) = firstPosition h k := by cases firstPosition h k <;> rfl
        rw [hsame, ← hold]
        constructor
        · rintro ⟨e, rfl | he, hkey, hpos⟩
          · exact absurd hkey hk
          · exact ⟨e, he, hkey, hpos⟩
        · rintro ⟨e, he, hkey⟩
          exact ⟨e, .inr he, hkey⟩

theorem holds_run (hc : ∀ c ∈ h, c.hashval = hash c.key) (hm : AllMeet h) :
    Holds hash (run h) h := by
  induction h with
  | nil => exact holds_initial
  | cons c h ih =>
    have ht := ih (fun c' hc' => hc c' (List.mem_cons_of_mem _ hc')) hm.2
    exact ht.call (hc c List.mem_cons_self) hm.1

lemma Holds.faithful (ht : Holds hash t h) : Faithful hash t h where
  inBucket := ht.placed.place
  answers := by
    intro c hc
    rw [← ht.find hc, OutputValueTracker.call]
    cases OutputValueTracker.find t c <;> rfl

end OutputValueTracker

/-! ### Input -/

/-- The item was added for the position, or found for an indirection there. -/
def Records : List InputCall → ℤ → InputItem → Prop
  | [], _, _ => False
  | .add item current :: h, p, x => (p = current ∧ x = item) ∨ Records h p x
  | .lookup kind pos current :: h, p, x =>
    (p = current ∧ x.kind = kind ∧ Records h pos x) ∨ Records h p x

namespace InputValueTracker

variable {t t' : InputValueTracker} {h : List InputCall} {c : InputCall} {item x y : InputItem}
variable {p pos current : ℤ} {kind : InputKind}

/-- A new entry has a position that can be stored and has nothing of another kind. -/
def Fits (h : List InputCall) (kind : InputKind) (p : ℤ) : Prop :=
  (0 ≤ p ∧ p < 2 ^ 31) ∧ ∀ x, Records h p x → x.kind = kind

/-- A call is not about a negative position, and what it adds fits. -/
def Meets (h : List InputCall) : InputCall → Prop
  | .add item current => Fits h item.kind current
  | .lookup kind pos current =>
    0 ≤ pos ∧ ((∃ x, Records h pos x ∧ x.kind = kind) → Fits h kind current)

/-- Every call of a history meets the condition. -/
def AllMeet : List InputCall → Prop
  | [] => True
  | c :: h => Meets h c ∧ AllMeet h

/-- Each entry is in its bucket, and a lookup finds something of its kind exactly where that was
recorded. -/
structure Faithful (t : InputValueTracker) (h : List InputCall) : Prop where
  inBucket : ∀ i, ∀ e ∈ t.table.bucket i, 0 ≤ e.position ∧ e.position.toNat % t.table.size = i
  finds : ∀ kind pos current, 0 ≤ pos → 0 ≤ current →
    ∃ t' r, lookup t kind pos current = some (t', r) ∧
    (r.isSome = true ↔ ∃ x, Records h pos x ∧ x.kind = kind) ∧
    ∀ x, r = some x → Records h pos x ∧ x.kind = kind

/-- The entries are those of a history, whose items have one kind for each position. -/
structure Holds (t : InputValueTracker) (h : List InputCall) : Prop where
  placed : t.table.Placed (fun e => e.position.toNat) id
  nonneg : ∀ e ∈ t.table.entries, 0 ≤ e.position
  sound : ∀ e ∈ t.table.entries, Records h e.position e.item
  complete : ∀ p x, Records h p x →
    ∃ e ∈ t.table.entries, e.position = p ∧ e.item.kind = x.kind
  oneKind : ∀ p x y, Records h p x → Records h p y → x.kind = y.kind

lemma holds_initial : Holds .initial [] where
  placed := Tracker.placed_initial
  nonneg := by
    rw [Tracker.initial, ChainTable.entries_empty]
    rintro _ ⟨⟩
  sound := by
    rw [Tracker.initial, ChainTable.entries_empty]
    rintro _ ⟨⟩
  complete := by rintro p x ⟨⟩
  oneKind := by rintro p x y ⟨⟩

/-- What a bucket has for a position is what was recorded for it. -/
lemma Holds.find (ht : Holds t h) (pos : ℤ) (kind : InputKind) :
    ((find t kind (pos.toNat % t.table.size) pos).isSome = true ↔
      ∃ x, Records h pos x ∧ x.kind = kind) ∧
      ∀ x, find t kind (pos.toNat % t.table.size) pos = some x → Records h pos x ∧ x.kind = kind := by
  have hfound : ∀ x, InputValueTracker.find t kind (pos.toNat % t.table.size) pos = some x →
      Records h pos x ∧ x.kind = kind := by
    intro x hx
    obtain ⟨hx, hkind⟩ := Option.filter_eq_some_iff.mp hx
    obtain ⟨e, he, rfl⟩ := Option.map_eq_some_iff.mp hx
    have hpos : e.position = pos := by simpa using List.find?_some he
    have hmem := List.mem_of_find?_eq_some he
    have hentry : e ∈ t.table.entries := by
      rw [ht.placed.mem_entries, hpos]
      exact hmem
    have hsound := ht.sound e hentry
    rw [hpos] at hsound
    exact ⟨hsound, of_decide_eq_true hkind⟩
  refine ⟨⟨?_, ?_⟩, hfound⟩
  · intro hsome
    obtain ⟨x, hx⟩ := Option.isSome_iff_exists.mp hsome
    exact ⟨x, hfound x hx⟩
  · rintro ⟨x, hx, rfl⟩
    obtain ⟨e, hentry, hpos, hkind⟩ := ht.complete pos x hx
    have hmem := ht.placed.mem_entries.mp hentry
    rw [hpos] at hmem
    -- the first entry of the position has the same kind as this one
    have hsome : ((t.table.bucket (pos.toNat % t.table.size)).find?
        fun e => decide (e.position = pos)).isSome = true := by
      rw [List.find?_isSome]
      exact ⟨e, hmem, by simpa using hpos⟩
    obtain ⟨e', he'⟩ := Option.isSome_iff_exists.mp hsome
    have hpos' : e'.position = pos := by simpa using List.find?_some he'
    have hentry' : e' ∈ t.table.entries := by
      rw [ht.placed.mem_entries, hpos']
      exact List.mem_of_find?_eq_some he'
    have hsound' := ht.sound e' hentry'
    rw [hpos'] at hsound'
    have hsame := ht.oneKind pos _ _ hsound' hx
    rw [InputValueTracker.find, he', Option.map_some, Option.filter_some,
      if_pos (decide_eq_true hsame)]
    rfl

lemma Holds.faithful (ht : Holds t h) : Faithful t h where
  inBucket := by
    intro i e he
    have hplace := ht.placed.place i e he
    refine ⟨ht.nonneg e ?_, hplace⟩
    rw [ht.placed.mem_entries, hplace]
    exact he
  finds := by
    intro kind pos current hp hc
    obtain ⟨hiff, hfound⟩ := ht.find pos kind
    rw [lookup, index, if_pos hp, Option.bind_some]
    cases hf : InputValueTracker.find t kind (pos.toNat % t.table.size) pos with
    | none =>
      rw [hf] at hiff hfound
      exact ⟨t, none, rfl, hiff, hfound⟩
    | some x =>
      rw [hf] at hiff hfound
      simp only [index, if_pos hc, Option.map_some]
      exact ⟨_, _, rfl, hiff, hfound⟩

/-- An entry more, in a table with the same entries. -/
lemma Holds.putAt {c : InputCall} {t' : InputValueTracker} (ht : Holds t h)
    (hplaced : t'.table.Placed (fun e => e.position.toNat) id)
    (hperm : t'.table.entries.Perm t.table.entries) {indirect : Bool}
    (hfits : Fits h item.kind current) (hrecords : Records (c :: h) current item)
    (hkinds : ∀ p x, Records (c :: h) p x ↔
      (p = current ∧ x.kind = item.kind ∧ Records (c :: h) p x) ∨ Records h p x) :
    Holds
      { t' with
        table := t'.table.putAt (current.toNat % t'.table.size)
          ⟨item, indirect, storedPosition current⟩ } (c :: h) := by
  obtain ⟨⟨h0, hbound⟩, hothers⟩ := hfits
  have hstored := storedPosition_eq h0 hbound
  have hput : t'.table.putAt (current.toNat % t'.table.size)
      (⟨item, indirect, storedPosition current⟩ : InputTableEntry)
      = t'.table.push (fun e => e.position.toNat) id
        ⟨item, indirect, storedPosition current⟩ := by
    apply ChainTable.putAt_of_place
    rw [hstored]
    rfl
  have hmem : ∀ e, e ∈ (t'.table.push (fun e => e.position.toNat) id
      (⟨item, indirect, storedPosition current⟩ : InputTableEntry)).entries ↔
        e = ⟨item, indirect, current⟩ ∨ e ∈ t.table.entries := by
    intro e
    rw [(ChainTable.perm_push hplaced _).mem_iff, List.mem_cons, hperm.mem_iff, hstored]
  rw [hput]
  refine ⟨hplaced.push _, ?_, ?_, ?_, ?_⟩
  · intro e he
    rcases (hmem e).mp he with rfl | he
    · exact h0
    · exact ht.nonneg e he
  · intro e he
    rcases (hmem e).mp he with rfl | he
    · exact hrecords
    · exact (hkinds _ _).mpr (.inr (ht.sound e he))
  · intro p x hx
    rcases (hkinds p x).mp hx with ⟨rfl, hkind, -⟩ | hx
    · exact ⟨_, (hmem _).mpr (.inl rfl), rfl, hkind.symm⟩
    · obtain ⟨e, he, hpos⟩ := ht.complete p x hx
      exact ⟨e, (hmem e).mpr (.inr he), hpos⟩
  · intro p x y hx hy
    rcases (hkinds p x).mp hx with ⟨rfl, hxkind, -⟩ | hx
    · rcases (hkinds p y).mp hy with ⟨-, hykind, -⟩ | hy
      · rw [hxkind, hykind]
      · rw [hxkind, hothers y hy]
    · rcases (hkinds p y).mp hy with ⟨rfl, hykind, -⟩ | hy
      · rw [hykind, hothers x hx]
      · exact ht.oneKind p x y hx hy

/-- Every call that meets the condition is within the table, and records what it adds. -/
theorem Holds.call (ht : Holds t h) (hm : Meets h c) :
    ∃ t' r, call t c = some (t', r) ∧ Holds t' (c :: h) := by
  cases c with
  | add item current =>
    have hcount : count t = some (Tracker.add (fun e => e.position.toNat) t) := by
      rw [count, if_neg]
      rintro ⟨-, e, he, hneg⟩
      exact absurd (ht.nonneg e he) (not_le.mpr hneg)
    simp only [InputValueTracker.call, InputValueTracker.add, hcount, Option.bind_some, index,
      if_pos hm.1.1, Option.map_some]
    refine ⟨_, _, rfl, ?_⟩
    refine ht.putAt (Tracker.placed_add ht.placed) Tracker.perm_add hm (.inl ⟨rfl, rfl⟩) ?_
    intro p x
    constructor
    · rintro (⟨rfl, rfl⟩ | hx)
      · exact .inl ⟨rfl, rfl, .inl ⟨rfl, rfl⟩⟩
      · exact .inr hx
    · rintro (⟨-, -, hx⟩ | hx)
      · exact hx
      · exact .inr hx
  | lookup kind pos current =>
    obtain ⟨hp, hfits⟩ := hm
    obtain ⟨hiff, hfound⟩ := ht.find pos kind
    rw [InputValueTracker.call, lookup, index, if_pos hp, Option.bind_some]
    cases hf : InputValueTracker.find t kind (pos.toNat % t.table.size) pos with
    | none =>
      rw [hf] at hiff
      have hnone : ∀ p x, Records (.lookup kind pos current :: h) p x ↔ Records h p x := by
        intro p x
        refine or_iff_right ?_
        rintro ⟨-, hkind, hx⟩
        exact absurd (hiff.mpr ⟨x, hx, hkind⟩) (by simp)
      refine ⟨t, none, rfl, ht.placed, ht.nonneg, ?_, ?_, ?_⟩
      · exact fun e he => (hnone _ _).mpr (ht.sound e he)
      · exact fun p x hx => ht.complete p x ((hnone p x).mp hx)
      · exact fun p x y hx hy => ht.oneKind p x y ((hnone p x).mp hx) ((hnone p y).mp hy)
    | some item =>
      obtain ⟨hrecords, rfl⟩ := hfound item hf
      have hfit := hfits ⟨item, hrecords, rfl⟩
      simp only [index, if_pos hfit.1.1, Option.map_some]
      refine ⟨_, _, rfl, ?_⟩
      refine ht.putAt ht.placed (.refl _) hfit (.inl ⟨rfl, rfl, hrecords⟩) ?_
      intro p x
      constructor
      · rintro (⟨rfl, hkind, hx⟩ | hx)
        · exact .inl ⟨rfl, hkind, .inl ⟨rfl, hkind, hx⟩⟩
        · exact .inr hx
      · rintro (⟨-, -, hx⟩ | hx)
        · exact hx
        · exact .inr hx

theorem holds_run (hm : AllMeet h) : ∃ t, run h = some t ∧ Holds t h := by
  induction h with
  | nil => exact ⟨_, rfl, holds_initial⟩
  | cons c h ih =>
    obtain ⟨t, hrun, ht⟩ := ih hm.2
    obtain ⟨t', r, hcall, ht'⟩ := ht.call hm.1
    refine ⟨t', ?_, ht'⟩
    rw [run, hrun, Option.bind_some, hcall]
    rfl

end InputValueTracker

/-! ### Both -/

/-- The trackers are faithful after all calls that meet the conditions. -/
theorem valueTrackers_faithful {hash : OutputKey → ℕ} {outputs : List OutputCall}
    {inputs : List InputCall} (hc : ∀ c ∈ outputs, c.hashval = hash c.key)
    (ho : OutputValueTracker.AllMeet outputs) (hi : InputValueTracker.AllMeet inputs) :
    (OutputValueTracker.run outputs).Faithful hash outputs ∧
      ∃ t, InputValueTracker.run inputs = some t ∧ t.Faithful inputs := by
  refine ⟨(OutputValueTracker.holds_run hc ho).faithful, ?_⟩
  obtain ⟨t, hrun, ht⟩ := InputValueTracker.holds_run hi
  exact ⟨t, hrun, ht.faithful⟩

/-- Addresses are their own hash values. -/
def addressHash : OutputKey → ℕ
  | .value address => address
  | _ => 0

/-- A value is added twice, and found in the input. -/
theorem valueTrackers_faithful_twice :
    (OutputValueTracker.run [.addValue 1000 8, .addValue 1000 0]).Faithful addressHash
        [.addValue 1000 8, .addValue 1000 0] ∧
      ∃ t, InputValueTracker.run [.lookup .value 0 8, .add (.value 1000) 0] = some t ∧
        t.Faithful [.lookup .value 0 8, .add (.value 1000) 0] := by
  apply valueTrackers_faithful
  · simp [OutputCall.hashval, OutputCall.key, addressHash]
  · refine ⟨fun hf => ?_, fun _ => ⟨by decide, ?_⟩, trivial⟩
    · cases hf
    · rintro n ⟨⟩
  · refine ⟨⟨le_rfl, ?_⟩, ⟨by decide, ?_⟩, trivial⟩
    · rintro -
      refine ⟨by decide, ?_⟩
      rintro x (⟨h, -⟩ | h)
      · norm_num at h
      · exact absurd h id
    · rintro x ⟨⟩

/-! #### An entry in a growing table -/

/-- Values at `n` addresses. -/
def distinctValues : ℕ → List OutputCall
  | 0 => []
  | n + 1 => .addValue (8 * n) n :: distinctValues n

lemma firstPosition_distinctValues {n m : ℕ} (h : n ≤ m) :
    firstPosition (distinctValues n) (.value (8 * m)) = none := by
  induction n with
  | zero => rfl
  | succ n ih =>
    rw [distinctValues, firstPosition, ih (by omega)]
    have hne : (OutputCall.addValue (8 * n) n).key ≠ .value (8 * m) := by
      simp only [OutputCall.key, ne_eq, OutputKey.value.injEq]
      omega
    simp [hne]

lemma hashval_distinctValues (n : ℕ) :
    ∀ c ∈ distinctValues n, c.hashval = addressHash c.key := by
  induction n with
  | zero => simp [distinctValues]
  | succ n ih =>
    intro c hc
    rcases List.mem_cons.mp hc with rfl | hc
    · rfl
    · exact ih c hc

/-- The table is not full before the first limit. -/
lemma run_distinctValues {n : ℕ} (hn : n ≤ 86) :
    OutputValueTracker.AllMeet (distinctValues n) ∧
      (OutputValueTracker.run (distinctValues n)).count = n ∧
      (OutputValueTracker.run (distinctValues n)).limit = 87 ∧
      (OutputValueTracker.run (distinctValues n)).nextIdx = 1 ∧
      (OutputValueTracker.run (distinctValues n)).table.size = 131 := by
  induction n with
  | zero => exact ⟨trivial, rfl, rfl, rfl, rfl⟩
  | succ n ih =>
    obtain ⟨hmeet, hcount, hlimit, hidx, hsize⟩ := ih (by omega)
    have hgrown : (OutputValueTracker.run (distinctValues n)).grownSize = none := by
      rw [Tracker.grownSize, hcount, hlimit, if_neg (by omega)]
    have hheld := OutputValueTracker.holds_run (hashval_distinctValues n) hmeet
    have hfind := hheld.find (c := .addValue (8 * n) n) rfl
    rw [OutputCall.key, firstPosition_distinctValues le_rfl, Option.map_eq_none_iff] at hfind
    have hadd : (OutputValueTracker.run (distinctValues n)).add OutputTableEntry.hashbase
        = { OutputValueTracker.run (distinctValues n) with count := n + 1 } := by
      have hmod : (n + 1) % 2 ^ 32 = n + 1 := Nat.mod_eq_of_lt (by omega)
      have hne : ¬n + 1 = 87 := by omega
      simp only [Tracker.add, hcount, hmod, hlimit, if_neg hne]
    refine ⟨⟨fun _ => ⟨⟨by simp [OutputCall.current], ?_⟩, ?_⟩, hmeet⟩, ?_⟩
    · simp only [OutputCall.current]
      omega
    · rw [hgrown]
      rintro m ⟨⟩
    · simp only [distinctValues, OutputValueTracker.run, OutputValueTracker.call, hfind, hadd]
      exact ⟨trivial, hlimit, hidx, hsize⟩

/-- The entry that makes the table grow is in the bucket that it had before. -/
theorem growing_entry_misplaced :
    ¬∀ (hash : OutputKey → ℕ) (outputs : List OutputCall),
      (∀ c ∈ outputs, c.hashval = hash c.key) →
      (OutputValueTracker.run outputs).Faithful hash outputs := by
  intro hall
  have hfaithful := hall addressHash (.addValue 1048 86 :: distinctValues 86) ?_
  · obtain ⟨hmeet, hcount, hlimit, hidx, hsize⟩ := run_distinctValues (n := 86) le_rfl
    have hheld := OutputValueTracker.holds_run (hashval_distinctValues 86) hmeet
    have hfind := hheld.find (c := .addValue 1048 86) rfl
    have hnew : firstPosition (distinctValues 86) (.value 1048) = none :=
      firstPosition_distinctValues (m := 131) (by decide)
    rw [OutputCall.key, hnew, Option.map_eq_none_iff] at hfind
    have hgrown : (OutputValueTracker.run (distinctValues 86)).grownSize = some 1033 := by
      rw [Tracker.grownSize, hcount, hlimit, hidx]
      rfl
    have hbucket := hfaithful.inBucket 0 (OutputCall.addValue 1048 86).entry
    simp only [OutputValueTracker.run, OutputValueTracker.call, hfind, hsize] at hbucket
    have hplace := hbucket (ChainTable.mem_bucket_putAt _ _ _)
    rw [ChainTable.size_putAt, Tracker.add_of_grownSize_some hgrown, ChainTable.size_rehash]
      at hplace
    norm_num [OutputCall.entry, OutputCall.hashval] at hplace
  · intro c hc
    rcases List.mem_cons.mp hc with rfl | hc
    · rfl
    · exact hashval_distinctValues 86 c hc

end OmniORB
