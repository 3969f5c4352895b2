import Mathlib

/-!
# Doubly linked lists

The nodes of a list are at addresses, each with the addresses of the nodes before and after it. What
is removed is freed, and its address is not used again.
-/

namespace OmniORB.Library

/-- A node of a list. -/
structure Node (α : Type*) where
  value : α
  prev : Option ℕ
  next : Option ℕ

/-- A list with the addresses of its first and its last node, and their number. The addresses from
`allocated` on are free. -/
structure DoublyLinked (α : Type*) where
  node : ℕ → Option (Node α)
  head : Option ℕ
  tail : Option ℕ
  size : ℕ
  allocated : ℕ

namespace DoublyLinked

variable {α : Type*}

def empty : DoublyLinked α := ⟨fun _ => none, none, none, 0, 0⟩

def setNext (d : DoublyLinked α) (p : ℕ) (next : Option ℕ) : DoublyLinked α :=
  { d with node := Function.update d.node p ((d.node p).map fun n => { n with next := next }) }

def setPrev (d : DoublyLinked α) (p : ℕ) (prev : Option ℕ) : DoublyLinked α :=
  { d with node := Function.update d.node p ((d.node p).map fun n => { n with prev := prev }) }

/-- What follows `prev`, or comes first, is now `next`. -/
def linkNext (d : DoublyLinked α) (prev next : Option ℕ) : DoublyLinked α :=
  match prev with
  | some p => d.setNext p next
  | none => { d with head := next }

/-- What precedes `next`, or comes last, is now `prev`. -/
def linkPrev (d : DoublyLinked α) (next prev : Option ℕ) : DoublyLinked α :=
  match next with
  | some p => d.setPrev p prev
  | none => { d with tail := prev }

/-- What comes before `next`, or at the end. -/
def before (d : DoublyLinked α) (next : Option ℕ) : Option ℕ :=
  match next with
  | some p => (d.node p).bind Node.prev
  | none => d.tail

/-- A new node before the one at `next`, or at the end. -/
def insert (d : DoublyLinked α) (v : α) (next : Option ℕ) : DoublyLinked α :=
  let prev := d.before next
  let p := d.allocated
  let d := { d with
    node := Function.update d.node p (some ⟨v, prev, next⟩), allocated := d.allocated + 1 }
  let d := (d.linkPrev next (some p)).linkNext prev (some p)
  { d with size := d.size + 1 }

/-- The node at `p` is taken out and freed. -/
def remove (d : DoublyLinked α) (p : ℕ) : DoublyLinked α :=
  match d.node p with
  | none => d
  | some n =>
    let d := (d.linkNext n.prev n.next).linkPrev n.next n.prev
    { d with node := Function.update d.node p none, size := d.size - 1 }

/-- The nodes that a loop along `next` goes through, in at most `fuel` rounds. -/
def walk (d : DoublyLinked α) : ℕ → Option ℕ → List (ℕ × α)
  | fuel + 1, some p =>
    match d.node p with
    | some n => (p, n.value) :: d.walk fuel n.next
    | none => []
  | _, _ => []

/-- The nodes that a loop from the first one on goes through. -/
def nodes (d : DoublyLinked α) : List (ℕ × α) := d.walk d.allocated d.head

/-- The address of the first node, and of the last one. -/
def first (l : List (ℕ × α)) : Option ℕ := l.head?.map Prod.fst

def last (l : List (ℕ × α)) : Option ℕ := l.getLast?.map Prod.fst

/-- The nodes of the list are those of `l`, linked in both directions. -/
structure Linked (d : DoublyLinked α) (l : List (ℕ × α)) : Prop where
  nodup : (l.map Prod.fst).Nodup
  head : d.head = first l
  tail : d.tail = last l
  node : ∀ l1 p v l2, l = l1 ++ (p, v) :: l2 → d.node p = some ⟨v, last l1, first l2⟩
  size : d.size = l.length
  allocated : ∀ a ∈ l, a.1 < d.allocated

variable {d : DoublyLinked α} {l l1 l2 : List (ℕ × α)} {p : ℕ} {v : α}

@[simp] lemma first_nil : first ([] : List (ℕ × α)) = none := rfl

@[simp] lemma first_cons (a : ℕ × α) (l : List (ℕ × α)) : first (a :: l) = some a.1 := rfl

@[simp] lemma last_nil : last ([] : List (ℕ × α)) = none := rfl

@[simp] lemma last_append_cons (l1 : List (ℕ × α)) (a : ℕ × α) (l2 : List (ℕ × α)) :
    last (l1 ++ a :: l2) = last (a :: l2) := by
  rw [last, last, List.getLast?_append_of_ne_nil l1 (List.cons_ne_nil a l2)]

@[simp] lemma last_concat (l : List (ℕ × α)) (a : ℕ × α) : last (l ++ [a]) = some a.1 := by
  rw [last_append_cons]
  rfl

lemma first_append_cons (l1 : List (ℕ × α)) (a : ℕ × α) (l2 : List (ℕ × α)) :
    first (l1 ++ a :: l2) = first (l1 ++ [a]) := by
  cases l1 <;> rfl

lemma linked_empty : (empty : DoublyLinked α).Linked [] where
  nodup := List.nodup_nil
  head := rfl
  tail := rfl
  node l1 p v l2 h := absurd h (by simp)
  size := rfl
  allocated a ha := absurd ha (List.not_mem_nil)

/-! ### Going through a list -/

lemma Linked.walk_eq (h : d.Linked l) (fuel : ℕ) (hl : l = l1 ++ l2) (hfuel : l2.length ≤ fuel) :
    d.walk fuel (first l2) = l2 := by
  induction l2 generalizing l1 fuel with
  | nil => cases fuel <;> rfl
  | cons a l2 ih =>
    obtain ⟨p, v⟩ := a
    cases fuel with
    | zero => simp at hfuel
    | succ fuel =>
      have hrest : d.walk fuel (first l2) = l2 := by
        refine @ih (l1 ++ [(p, v)]) fuel ?_ ?_
        · rw [hl, List.append_assoc]
          rfl
        · exact Nat.le_of_succ_le_succ hfuel
      simp only [first_cons, walk, h.node l1 p v l2 hl, hrest]

lemma Linked.length_le (h : d.Linked l) : l.length ≤ d.allocated := by
  have hsub : (l.map Prod.fst).toFinset ⊆ Finset.range d.allocated := by
    intro p hp
    obtain ⟨a, ha, rfl⟩ := List.mem_map.mp (List.mem_toFinset.mp hp)
    exact Finset.mem_range.mpr (h.allocated a ha)
  calc l.length = (l.map Prod.fst).toFinset.card := by
        rw [List.toFinset_card_of_nodup h.nodup, List.length_map]
    _ ≤ (Finset.range d.allocated).card := Finset.card_le_card hsub
    _ = d.allocated := Finset.card_range _

/-- The loop goes through all nodes, in their order. -/
theorem Linked.nodes_eq (h : d.Linked l) : d.nodes = l := by
  rw [nodes, h.head]
  exact h.walk_eq d.allocated (List.nil_append l).symm h.length_le

/-! ### Links -/

lemma linkNext_node (d : DoublyLinked α) (prev next : Option ℕ) (q : ℕ) :
    (d.linkNext prev next).node q =
      if prev = some q then (d.node q).map fun n => { n with next := next } else d.node q := by
  cases prev with
  | none => rfl
  | some p =>
    rcases eq_or_ne q p with rfl | hne
    · rw [if_pos rfl]
      exact Function.update_self _ _ _
    · rw [if_neg (fun h => hne (Option.some.inj h).symm)]
      exact Function.update_of_ne hne _ _

lemma linkPrev_node (d : DoublyLinked α) (next prev : Option ℕ) (q : ℕ) :
    (d.linkPrev next prev).node q =
      if next = some q then (d.node q).map fun n => { n with prev := prev } else d.node q := by
  cases next with
  | none => rfl
  | some p =>
    rcases eq_or_ne q p with rfl | hne
    · rw [if_pos rfl]
      exact Function.update_self _ _ _
    · rw [if_neg (fun h => hne (Option.some.inj h).symm)]
      exact Function.update_of_ne hne _ _

@[simp] lemma linkNext_size (d : DoublyLinked α) (prev next : Option ℕ) :
    (d.linkNext prev next).size = d.size := by cases prev <;> rfl

@[simp] lemma linkPrev_size (d : DoublyLinked α) (next prev : Option ℕ) :
    (d.linkPrev next prev).size = d.size := by cases next <;> rfl

@[simp] lemma linkNext_allocated (d : DoublyLinked α) (prev next : Option ℕ) :
    (d.linkNext prev next).allocated = d.allocated := by cases prev <;> rfl

@[simp] lemma linkPrev_allocated (d : DoublyLinked α) (next prev : Option ℕ) :
    (d.linkPrev next prev).allocated = d.allocated := by cases next <;> rfl

@[simp] lemma linkNext_tail (d : DoublyLinked α) (prev next : Option ℕ) :
    (d.linkNext prev next).tail = d.tail := by cases prev <;> rfl

@[simp] lemma linkPrev_head (d : DoublyLinked α) (next prev : Option ℕ) :
    (d.linkPrev next prev).head = d.head := by cases next <;> rfl

lemma linkNext_head (d : DoublyLinked α) (prev next : Option ℕ) :
    (d.linkNext prev next).head = if prev = none then next else d.head := by cases prev <;> rfl

lemma linkPrev_tail (d : DoublyLinked α) (next prev : Option ℕ) :
    (d.linkPrev next prev).tail = if next = none then prev else d.tail := by cases next <;> rfl

@[simp] lemma last_eq_none : last l = none ↔ l = [] := by
  rw [last, Option.map_eq_none_iff, List.getLast?_eq_none_iff]

@[simp] lemma first_eq_none : first l = none ↔ l = [] := by
  rw [first, Option.map_eq_none_iff, List.head?_eq_none_iff]

lemma mem_of_last {q : ℕ} (h : last l = some q) : q ∈ l.map Prod.fst := by
  obtain ⟨a, ha, rfl⟩ := Option.map_eq_some_iff.mp h
  exact List.mem_map_of_mem (List.mem_of_getLast? ha)

lemma mem_of_first {q : ℕ} (h : first l = some q) : q ∈ l.map Prod.fst := by
  obtain ⟨a, ha, rfl⟩ := Option.map_eq_some_iff.mp h
  exact List.mem_map_of_mem (List.mem_of_mem_head? ha)

lemma mem_middle (l1 : List (ℕ × α)) (q : ℕ) (w : α) (l2 : List (ℕ × α)) :
    q ∈ (l1 ++ (q, w) :: l2).map Prod.fst :=
  List.mem_map_of_mem (List.mem_append_right l1 List.mem_cons_self)

/-- An address that is there once is the last one only at the end. -/
lemma last_eq_self_iff {q : ℕ} {w : α} (h : ((l1 ++ (q, w) :: l2).map Prod.fst).Nodup) :
    last (l1 ++ (q, w) :: l2) = some q ↔ l2 = [] := by
  constructor
  · intro hlast
    rcases List.eq_nil_or_concat l2 with rfl | ⟨l3, a, rfl⟩
    · rfl
    · rw [List.concat_eq_append, last_append_cons, ← List.cons_append, last_concat] at hlast
      rw [List.map_append, List.map_cons, List.nodup_append] at h
      have hmem : q ∈ (l3.concat a).map Prod.fst := by
        rw [← Option.some.inj hlast]
        exact List.mem_map_of_mem (by simp)
      exact absurd hmem (List.nodup_cons.mp h.2.1).1
  · rintro rfl
    exact last_concat l1 (q, w)

lemma first_eq_self_iff {q : ℕ} {w : α} (h : ((l1 ++ (q, w) :: l2).map Prod.fst).Nodup) :
    first (l1 ++ (q, w) :: l2) = some q ↔ l1 = [] := by
  constructor
  · intro hfirst
    cases l1 with
    | nil => rfl
    | cons a l1 =>
      have hmem : a.1 ∈ (l1 ++ (q, w) :: l2).map Prod.fst := by
        rw [Option.some.inj hfirst]
        exact mem_middle l1 q w l2
      exact absurd hmem (List.nodup_cons.mp h).1
  · rintro rfl
    rfl

/-! ### A new last node -/

lemma insert_none (d : DoublyLinked α) (v : α) :
    d.insert v none =
      { (({ d with node := Function.update d.node d.allocated (some ⟨v, d.tail, none⟩)
                   allocated := d.allocated + 1, tail := some d.allocated } :
            DoublyLinked α).linkNext d.tail (some d.allocated)) with size := d.size + 1 } := by
  cases htail : d.tail <;> simp [insert, before, linkPrev, linkNext, setNext, htail]

theorem Linked.insert_none (h : d.Linked l) (v : α) :
    (d.insert v none).Linked (l ++ [(d.allocated, v)]) := by
  have hfresh : ∀ a ∈ l, a.1 ≠ d.allocated := fun a ha => Nat.ne_of_lt (h.allocated a ha)
  have hnodup : ((l ++ [(d.allocated, v)]).map Prod.fst).Nodup := by
    rw [List.map_append, List.nodup_append]
    refine ⟨h.nodup, List.nodup_singleton _, ?_⟩
    intro p hp q hq
    obtain ⟨a, ha, rfl⟩ := List.mem_map.mp hp
    rw [List.mem_singleton.mp hq]
    exact hfresh a ha
  rw [DoublyLinked.insert_none]
  constructor
  case nodup => exact hnodup
  case head =>
    show (linkNext _ d.tail (some d.allocated)).head = _
    rw [linkNext_head, h.tail]
    cases l with
    | nil => rfl
    | cons a l =>
      rw [if_neg (by simp)]
      exact h.head
  case tail =>
    show (linkNext _ d.tail (some d.allocated)).tail = _
    rw [linkNext_tail, last_concat]
  case node =>
    intro l1 q w l2 hl
    show (linkNext _ d.tail (some d.allocated)).node q = _
    rw [linkNext_node, h.tail]
    rcases List.eq_nil_or_concat l2 with rfl | ⟨l3, a, rfl⟩
    · obtain ⟨rfl, hlast⟩ := List.append_inj' hl rfl
      obtain ⟨rfl, rfl⟩ := Prod.mk.inj (List.cons.inj hlast).1
      have hne : last l ≠ some d.allocated := by
        intro heq
        obtain ⟨a, ha, hpa⟩ := List.mem_map.mp (mem_of_last heq)
        exact hfresh a ha hpa
      rw [if_neg hne]
      exact Function.update_self _ _ _
    · rw [List.concat_eq_append, ← List.cons_append, ← List.append_assoc] at hl
      obtain ⟨rfl, hlast⟩ := List.append_inj' hl rfl
      obtain rfl := (List.cons.inj hlast).1
      have hq : q ≠ d.allocated := hfresh (q, w) (by simp)
      have hnode := h.node l1 q w l3 rfl
      simp only [Function.update_of_ne hq, hnode, last_eq_self_iff h.nodup]
      cases l3 with
      | nil => simp
      | cons b l3 => simp
  case size =>
    show d.size + 1 = _
    rw [h.size, List.length_append]
    rfl
  case allocated =>
    intro a ha
    show a.1 < (linkNext _ d.tail (some d.allocated)).allocated
    rw [linkNext_allocated]
    show a.1 < d.allocated + 1
    rcases List.mem_append.mp ha with hold | hnew
    · exact Nat.lt_succ_of_lt (h.allocated a hold)
    · rw [List.mem_singleton.mp hnew]
      exact Nat.lt_succ_self _

/-! ### Taking a node out -/

lemma remove_of_node {prev next : Option ℕ} (h : d.node p = some ⟨v, prev, next⟩) :
    d.remove p = { ((d.linkNext prev next).linkPrev next prev) with
      node := Function.update ((d.linkNext prev next).linkPrev next prev).node p none
      size := d.size - 1 } := by
  rw [remove, h]
  simp

/-- A node other than the one taken out is on one side of it or on the other. -/
lemma sides_of_append_eq {a : ℕ × α} {m1 m2 : List (ℕ × α)} (h : l1 ++ l2 = m1 ++ a :: m2) :
    (∃ k, m1 = l1 ++ k ∧ l2 = k ++ a :: m2) ∨ ∃ k, l1 = m1 ++ a :: k ∧ m2 = k ++ l2 := by
  rcases List.append_eq_append_iff.mp h with ⟨k, hm, hl⟩ | ⟨k, hl, hm⟩
  · exact Or.inl ⟨k, hm, hl⟩
  · cases k with
    | nil => exact Or.inl ⟨[], by simpa using hl.symm, hm.symm⟩
    | cons b k =>
      obtain ⟨rfl, rfl⟩ := List.cons.inj hm
      exact Or.inr ⟨k, hl, rfl⟩

theorem Linked.remove (h : d.Linked (l1 ++ (p, v) :: l2)) : (d.remove p).Linked (l1 ++ l2) := by
  have hnodup := h.nodup
  rw [List.map_append, List.map_cons, List.nodup_middle, List.nodup_cons, ← List.map_append]
    at hnodup
  obtain ⟨hp, hnodup⟩ := hnodup
  rw [remove_of_node (h.node l1 p v l2 rfl)]
  constructor
  case nodup => exact hnodup
  case head =>
    show (linkPrev _ _ _).head = _
    rw [linkPrev_head, linkNext_head, h.head]
    cases l1 with
    | nil => simp
    | cons a l1 => simp
  case tail =>
    show (linkPrev _ _ _).tail = _
    rw [linkPrev_tail, linkNext_tail, h.tail]
    cases l2 with
    | nil => simp
    | cons a l2 =>
      rw [first_cons, if_neg (Option.some_ne_none _), last_append_cons, last_append_cons,
        ← List.singleton_append, last_append_cons]
  case node =>
    intro m1 q w m2 hl
    have hmem : q ∈ (l1 ++ l2).map Prod.fst := by
      rw [hl]
      exact mem_middle m1 q w m2
    have hq : q ≠ p := fun heq => hp (heq ▸ hmem)
    show Function.update (linkPrev _ _ _).node p none q = _
    rw [Function.update_of_ne hq, linkPrev_node, linkNext_node]
    rcases sides_of_append_eq hl with ⟨k, rfl, rfl⟩ | ⟨k, rfl, rfl⟩
    · -- behind the node that goes
      have hnode := h.node (l1 ++ (p, v) :: k) q w m2 (by simp)
      rw [List.map_append, List.nodup_append] at hnodup
      have hprev : last l1 ≠ some q := by
        intro heq
        exact hnodup.2.2 q (mem_of_last heq) q (mem_middle k q w m2) rfl
      rw [if_neg hprev, hnode]
      simp only [first_eq_self_iff hnodup.2.1]
      rcases List.eq_nil_or_concat k with rfl | ⟨k, a, rfl⟩
      · simp
      · rw [List.concat_eq_append, ← List.append_assoc, last_concat, ← List.cons_append,
          ← List.append_assoc, last_concat, if_neg (by simp)]
    · -- before it
      have hnode := h.node m1 q w (k ++ (p, v) :: l2) (by simp)
      rw [List.map_append, List.nodup_append] at hnodup
      have hnext : first l2 ≠ some q := by
        intro heq
        exact hnodup.2.2 q (mem_middle m1 q w k) q (mem_of_first heq) rfl
      rw [if_neg hnext, hnode]
      simp only [last_eq_self_iff hnodup.1]
      cases k with
      | nil => simp
      | cons a k => simp
  case size =>
    show d.size - 1 = _
    rw [h.size]
    simp
  case allocated =>
    intro a ha
    show a.1 < (linkPrev _ _ _).allocated
    rw [linkPrev_allocated, linkNext_allocated]
    apply h.allocated
    rcases List.mem_append.mp ha with h1 | h2
    · exact List.mem_append_left _ h1
    · exact List.mem_append_right _ (List.mem_cons_of_mem _ h2)

end DoublyLinked

end OmniORB.Library
