import Mathlib

/-!
# The first of each key

Of the elements of a list that have the same key, the first is kept.
-/

namespace OmniORB.Library

variable {α κ : Type*} [DecidableEq κ] {key : α → κ} {l m : List α} {x y : α}

/-- An element is added unless its key is there. -/
def addFirst (key : α → κ) (l : List α) (x : α) : List α :=
  if l.any (fun y => key y = key x) then l else l ++ [x]

/-- Of each key, the first element. -/
def firsts (key : α → κ) (l : List α) : List α := l.foldl (addFirst key) []

lemma any_key : l.any (fun y => key y = key x) = true ↔ key x ∈ l.map key := by
  simp [List.mem_map]

lemma nodup_addFirst (h : (l.map key).Nodup) (x : α) : ((addFirst key l x).map key).Nodup := by
  rw [addFirst]
  split_ifs with hx
  · exact h
  · rw [any_key] at hx
    rw [List.map_append, List.map_singleton]
    exact h.append (List.nodup_singleton _) (List.disjoint_singleton.mpr hx)

lemma nodup_foldl_addFirst (h : (m.map key).Nodup) (l : List α) :
    ((l.foldl (addFirst key) m).map key).Nodup := by
  induction l generalizing m with
  | nil => exact h
  | cons x l ih => exact ih (nodup_addFirst h x)

lemma nodup_firsts (key : α → κ) (l : List α) : ((firsts key l).map key).Nodup :=
  nodup_foldl_addFirst (m := []) List.nodup_nil l

/-- Where the keys differ, each element is the first of its key. -/
lemma mem_iff_find? (h : (l.map key).Nodup) :
    x ∈ l ↔ l.find? (fun y => key y = key x) = some x := by
  constructor
  · intro hx
    induction l with
    | nil => cases hx
    | cons y l ih =>
      rw [List.map_cons, List.nodup_cons] at h
      rcases List.mem_cons.mp hx with rfl | hx
      · exact List.find?_cons_of_pos (by simp)
      · have hne : key y ≠ key x := fun heq => h.1 (heq ▸ List.mem_map_of_mem hx)
        rw [List.find?_cons_of_neg (by simpa using hne)]
        exact ih h.2 hx
  · exact List.mem_of_find?_eq_some

/-- An element whose key is there before is not found. -/
lemma find?_append_cons (h : key y ∈ m.map key) (l : List α) :
    (m ++ y :: l).find? (fun z => key z = key x) = (m ++ l).find? (fun z => key z = key x) := by
  rw [List.find?_append, List.find?_append]
  by_cases hy : key y = key x
  · obtain ⟨z, hz, heq⟩ := List.mem_map.mp h
    have hfound : (m.find? (fun z => key z = key x)).isSome :=
      List.find?_isSome.mpr ⟨z, hz, decide_eq_true (heq.trans hy)⟩
    obtain ⟨w, hw⟩ := Option.isSome_iff_exists.mp hfound
    rw [hw, Option.some_or, Option.some_or]
  · rw [List.find?_cons_of_neg (by simpa using hy)]

lemma mem_foldl_addFirst (h : (m.map key).Nodup) :
    x ∈ l.foldl (addFirst key) m ↔ (m ++ l).find? (fun y => key y = key x) = some x := by
  induction l generalizing m with
  | nil =>
    rw [List.foldl_nil, List.append_nil]
    exact mem_iff_find? h
  | cons y l ih =>
    rw [List.foldl_cons, ih (nodup_addFirst h y), addFirst]
    split_ifs with hy
    · rw [find?_append_cons (any_key.mp hy)]
    · rw [List.append_assoc, List.singleton_append]

/-- The elements that are kept are those that are found by their keys. -/
theorem mem_firsts : x ∈ firsts key l ↔ l.find? (fun y => key y = key x) = some x := by
  exact mem_foldl_addFirst (m := []) List.nodup_nil

/-- Elements with different keys need not be compared with each other. -/
lemma foldl_addFirst_of_nodup (h : (l.map key).Nodup) (m : List α) : l.foldl (addFirst key) m =
    m ++ l.filter fun x => !m.any fun y => key y = key x := by
  induction l generalizing m with
  | nil => simp
  | cons x l ih =>
    rw [List.map_cons, List.nodup_cons] at h
    rw [List.foldl_cons, ih h.2, addFirst]
    split_ifs with hx
    · rw [List.filter_cons_of_neg (by simpa using hx)]
    · rw [List.filter_cons_of_pos (by simpa using hx), List.append_assoc, List.singleton_append]
      congr 2
      refine List.filter_congr fun z hz => ?_
      have hne : key x ≠ key z := fun heq => h.1 (heq ▸ List.mem_map_of_mem hz)
      simp [hne]

end OmniORB.Library
