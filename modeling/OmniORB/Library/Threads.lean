import Mathlib

/-!
# Threads

Threads are lists of instructions, each of which is carried out at once. The first instruction of a
thread is replaced by those that it leads to.
-/

namespace OmniORB.Library

variable {ι : Type*} {threads : List (List ι)} {t : ℕ} {i : ι}

/-- What the threads have still to carry out. -/
def pending (threads : List (List ι)) : List ι := threads.flatten

/-- The next instruction of a thread. -/
def next (threads : List (List ι)) (t : ℕ) : Option ι := threads[t]?.bind List.head?

/-- A thread has carried out its first instruction, which led to others. -/
def proceed (threads : List (List ι)) (t : ℕ) (l : List ι) : List (List ι) :=
  threads.modify t fun thread => l ++ thread.tail

@[simp] lemma pending_nil : pending ([] : List (List ι)) = [] := rfl

@[simp] lemma pending_append (threads threads' : List (List ι)) :
    pending (threads ++ threads') = pending threads ++ pending threads' := List.flatten_append

@[simp] lemma pending_singleton (thread : List ι) : pending [thread] = thread :=
  List.flatten_singleton

/-- Apart from the instruction that was carried out and those that it led to, the same instructions
are left to do. -/
lemma proceed_perm (h : next threads t = some i) (l : List ι) :
    (pending (proceed threads t l) ++ [i]).Perm (pending threads ++ l) := by
  obtain ⟨thread, hthread, hi⟩ := Option.bind_eq_some_iff.mp h
  obtain ⟨rest, rfl⟩ := List.head?_eq_some_iff.mp hi
  obtain ⟨ht, hget⟩ := List.getElem?_eq_some_iff.mp hthread
  have hsplit : threads = threads.take t ++ (i :: rest) :: threads.drop (t + 1) := by
    rw [← hget, List.getElem_cons_drop, List.take_append_drop]
  have hold : pending threads
      = (threads.take t).flatten ++ (i :: rest) ++ (threads.drop (t + 1)).flatten := by
    conv_lhs => rw [pending, hsplit]
    simp
  have hnew : pending (proceed threads t l)
      = (threads.take t).flatten ++ (l ++ rest) ++ (threads.drop (t + 1)).flatten := by
    rw [proceed, pending, List.modify_eq_take_cons_drop ht, hget]
    simp
  rw [hold, hnew]
  classical
  refine List.perm_iff_count.mpr fun a => ?_
  simp only [List.count_append, List.count_cons, List.count_nil]
  omega

lemma mem_pending_of_next (h : next threads t = some i) : i ∈ pending threads := by
  have hp := (proceed_perm h []).mem_iff (a := i)
  simpa using hp

lemma mem_proceed (h : next threads t = some i) {l : List ι} {j : ι} (hj : j ∈ l) :
    j ∈ pending (proceed threads t l) := by
  obtain ⟨thread, hthread, -⟩ := Option.bind_eq_some_iff.mp h
  obtain ⟨ht, hget⟩ := List.getElem?_eq_some_iff.mp hthread
  refine List.mem_flatten.mpr ⟨l ++ thread.tail, ?_, List.mem_append_left _ hj⟩
  rw [proceed, List.modify_eq_take_cons_drop ht, hget]
  exact List.mem_append_right _ List.mem_cons_self

/-- If there is one instruction of a kind at most, two of them are the same. -/
lemma eq_of_countP_le_one {f : ι → Bool} {l : List ι} (h : l.countP f ≤ 1) {j : ι}
    (hi : i ∈ l) (hj : j ∈ l) (hfi : f i = true) (hfj : f j = true) : i = j := by
  rw [List.countP_eq_length_filter] at h
  have hi' : i ∈ l.filter f := List.mem_filter.mpr ⟨hi, hfi⟩
  have hj' : j ∈ l.filter f := List.mem_filter.mpr ⟨hj, hfj⟩
  match hl : l.filter f with
  | [] => simp [hl] at hi'
  | [a] =>
    rw [hl, List.mem_singleton] at hi' hj'
    rw [hi', hj']
  | a :: b :: r => simp [hl] at h

end OmniORB.Library
