import Mathlib

/-!
# Hash tables with chains

A table has a number of buckets. An entry is in the bucket that the hash of its key modulo that
number says, at the front when it is new.
-/

namespace OmniORB.Library

/-- A table of `size` buckets. -/
structure ChainTable (α : Type*) where
  size : ℕ
  bucket : ℕ → List α

namespace ChainTable

variable {α κ : Type*} (key : α → κ) (hash : κ → ℕ)

def empty (size : ℕ) : ChainTable α := ⟨size, fun _ => []⟩

/-- The bucket of a key. -/
def place (t : ChainTable α) (k : κ) : ℕ := hash k % t.size

/-- The entries, bucket by bucket. -/
def entries (t : ChainTable α) : List α := (List.range t.size).flatMap t.bucket

def push (t : ChainTable α) (a : α) : ChainTable α :=
  let i := t.place hash (key a)
  { t with bucket := Function.update t.bucket i (a :: t.bucket i) }

/-- An entry is put at the front of a bucket. -/
def putAt (t : ChainTable α) (i : ℕ) (a : α) : ChainTable α :=
  { t with bucket := Function.update t.bucket i (a :: t.bucket i) }

def remove [DecidableEq α] (t : ChainTable α) (a : α) : ChainTable α :=
  let i := t.place hash (key a)
  { t with bucket := Function.update t.bucket i ((t.bucket i).erase a) }

def find [DecidableEq κ] (t : ChainTable α) (k : κ) : Option α :=
  (t.bucket (t.place hash k)).find? fun a => key a = k

/-- The entries are moved to `n` buckets, one after the other. -/
def rehash (t : ChainTable α) (n : ℕ) : ChainTable α :=
  t.entries.foldl (push key hash) (empty n)

/-- Each entry is in its bucket. -/
structure Placed (t : ChainTable α) : Prop where
  pos : 0 < t.size
  place : ∀ i, ∀ a ∈ t.bucket i, t.place hash (key a) = i

/-- No key is there twice. -/
structure Ok (t : ChainTable α) : Prop extends Placed key hash t where
  nodup : (t.entries.map key).Nodup

variable {key hash} {t : ChainTable α} {a : α} {n : ℕ}

@[simp] lemma size_push (t : ChainTable α) (a : α) : (t.push key hash a).size = t.size := rfl

lemma putAt_of_place {i : ℕ} (hi : t.place hash (key a) = i) :
    t.putAt i a = t.push key hash a := by
  rw [← hi]
  rfl

lemma size_putAt (t : ChainTable α) (i : ℕ) (a : α) : (t.putAt i a).size = t.size := rfl

lemma mem_bucket_putAt (t : ChainTable α) (i : ℕ) (a : α) : a ∈ (t.putAt i a).bucket i := by
  simp [putAt]

@[simp] lemma entries_empty (n : ℕ) : (empty n : ChainTable α).entries = [] :=
  List.flatMap_eq_nil_iff.mpr fun _ _ => rfl

lemma Placed.place_lt (h : t.Placed key hash) (k : κ) : t.place hash k < t.size :=
  Nat.mod_lt _ h.pos

lemma Placed.mem_entries (h : t.Placed key hash) :
    a ∈ t.entries ↔ a ∈ t.bucket (t.place hash (key a)) := by
  rw [entries, List.mem_flatMap]
  constructor
  · rintro ⟨i, -, ha⟩
    rwa [h.place i a ha]
  · intro ha
    exact ⟨_, List.mem_range.mpr (h.place_lt _), ha⟩

lemma placed_empty (hn : 0 < n) : (empty n : ChainTable α).Placed key hash :=
  ⟨hn, fun _ _ ha => absurd ha List.not_mem_nil⟩

/-! ### Adding and removing -/

/-- An entry more in one of the buckets. -/
lemma flatMap_update_cons {f : ℕ → List α} {i : ℕ} (l : List α) (hi : i < n) :
    ((List.range n).flatMap (Function.update f i (a :: l))).Perm
      (a :: (List.range n).flatMap (Function.update f i l)) := by
  induction n with
  | zero => exact absurd hi (Nat.not_lt_zero i)
  | succ n ih =>
    rw [List.range_succ, List.flatMap_append, List.flatMap_append, List.flatMap_singleton,
      List.flatMap_singleton]
    by_cases hin : i = n
    · subst hin
      have hfront : ∀ l : List α, (List.range i).flatMap (Function.update f i l) =
          (List.range i).flatMap f := fun l =>
        List.flatMap_congr fun j hj =>
          Function.update_of_ne (List.mem_range.mp hj).ne l f
      rw [hfront, hfront, Function.update_self, Function.update_self]
      exact List.perm_middle
    · rw [Function.update_of_ne (Ne.symm hin), Function.update_of_ne (Ne.symm hin)]
      exact (ih (by omega)).append_right _

lemma perm_push (h : t.Placed key hash) (a : α) :
    (t.push key hash a).entries.Perm (a :: t.entries) := by
  have hp := flatMap_update_cons (a := a) (f := t.bucket) (t.bucket (t.place hash (key a)))
    (h.place_lt (key a))
  rwa [Function.update_eq_self] at hp

lemma Placed.push (h : t.Placed key hash) (a : α) : (t.push key hash a).Placed key hash where
  pos := h.pos
  place i b hb := by
    change t.place hash (key b) = i
    by_cases hi : i = t.place hash (key a)
    · subst hi
      change b ∈ Function.update t.bucket _ _ _ at hb
      rw [Function.update_self, List.mem_cons] at hb
      rcases hb with rfl | hb
      · rfl
      · exact h.place _ b hb
    · change b ∈ Function.update t.bucket _ _ _ at hb
      rw [Function.update_of_ne hi] at hb
      exact h.place i b hb

lemma Ok.push (h : t.Ok key hash) (ha : key a ∉ t.entries.map key) :
    (t.push key hash a).Ok key hash where
  toPlaced := h.toPlaced.push a
  nodup := by
    rw [((perm_push h.toPlaced a).map key).nodup_iff, List.map_cons, List.nodup_cons]
    exact ⟨ha, h.nodup⟩

section remove

variable [DecidableEq α]

lemma perm_remove (h : t.Placed key hash) (ha : a ∈ t.entries) :
    t.entries.Perm (a :: (t.remove key hash a).entries) := by
  have hperm := List.perm_cons_erase (h.mem_entries.mp ha)
  refine List.Perm.trans ?_ (flatMap_update_cons _ (h.place_lt (key a)))
  refine List.Perm.flatMap_left _ fun i _ => ?_
  by_cases hi : i = t.place hash (key a)
  · subst hi
    rwa [Function.update_self]
  · rw [Function.update_of_ne hi]

lemma Placed.remove (h : t.Placed key hash) (a : α) : (t.remove key hash a).Placed key hash where
  pos := h.pos
  place i b hb := by
    change t.place hash (key b) = i
    change b ∈ Function.update t.bucket _ _ _ at hb
    by_cases hi : i = t.place hash (key a)
    · subst hi
      rw [Function.update_self] at hb
      exact h.place _ b (List.mem_of_mem_erase hb)
    · rw [Function.update_of_ne hi] at hb
      exact h.place i b hb

lemma Ok.remove (h : t.Ok key hash) (ha : a ∈ t.entries) : (t.remove key hash a).Ok key hash where
  toPlaced := h.toPlaced.remove a
  nodup := by
    have hnodup := h.nodup
    rw [((perm_remove h.toPlaced ha).map key).nodup_iff, List.map_cons] at hnodup
    exact hnodup.of_cons

end remove

/-! ### Moving to other buckets -/

lemma Placed.foldl_push (h : t.Placed key hash) (l : List α) :
    (l.foldl (ChainTable.push key hash) t).Placed key hash ∧
      (l.foldl (ChainTable.push key hash) t).entries.Perm (l ++ t.entries) := by
  induction l generalizing t with
  | nil => exact ⟨h, List.Perm.refl _⟩
  | cons a l ih =>
    obtain ⟨hplaced, hperm⟩ := ih (h.push a)
    refine ⟨hplaced, hperm.trans ?_⟩
    exact ((perm_push h a).append_left l).trans List.perm_middle

lemma perm_rehash (t : ChainTable α) (hn : 0 < n) :
    (t.rehash key hash n).entries.Perm t.entries := by
  have hempty : (empty n : ChainTable α).Placed key hash := placed_empty hn
  have hperm := (hempty.foldl_push t.entries).2
  rwa [entries_empty, List.append_nil] at hperm

lemma placed_rehash (t : ChainTable α) (hn : 0 < n) :
    (t.rehash key hash n).Placed key hash :=
  ((placed_empty hn).foldl_push t.entries).1

lemma size_rehash (t : ChainTable α) (n : ℕ) : (t.rehash key hash n).size = n := by
  have hsize : ∀ (l : List α) (t : ChainTable α),
      (l.foldl (ChainTable.push key hash) t).size = t.size := by
    intro l
    induction l with
    | nil => exact fun _ => rfl
    | cons a l ih => exact fun t => ih (t.push key hash a)
  exact hsize _ _

lemma Ok.rehash (h : t.Ok key hash) (hn : 0 < n) : (t.rehash key hash n).Ok key hash where
  toPlaced := placed_rehash t hn
  nodup := ((perm_rehash t hn).map key).nodup_iff.mpr h.nodup

/-! ### Looking for a key -/

lemma Ok.find_eq_some [DecidableEq κ] (h : t.Ok key hash) {k : κ} :
    t.find key hash k = some a ↔ a ∈ t.entries ∧ key a = k := by
  constructor
  · intro hfind
    rw [find] at hfind
    have hk : key a = k := by simpa using List.find?_some hfind
    subst hk
    exact ⟨h.mem_entries.mpr (List.mem_of_find?_eq_some hfind), rfl⟩
  · rintro ⟨ha, rfl⟩
    rcases hfind : t.find key hash (key a) with - | b
    · rw [find, List.find?_eq_none] at hfind
      exact absurd (decide_eq_true rfl) (hfind a (h.mem_entries.mp ha))
    · rw [find] at hfind
      have hb : key b = key a := by simpa using List.find?_some hfind
      have hmem : b ∈ t.entries := by
        rw [h.mem_entries, hb]
        exact List.mem_of_find?_eq_some hfind
      rw [List.inj_on_of_nodup_map h.nodup hmem ha hb]

end ChainTable

end OmniORB.Library
