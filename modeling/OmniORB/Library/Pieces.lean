import Mathlib

/-!
# Sequences delivered in pieces

A source holds a sequence that arrives in non-empty pieces. `recv` gives part of the next piece,
`recvExactly` and `recvAtLeast` are the two loops over it. What they gather depends on the sequence
only, except for how far `recvAtLeast` reads ahead.
-/

namespace OmniORB.Library

/-- A sequence that is delivered in non-empty pieces. -/
structure Pieces (α : Type) where
  pieces : List (List α)
  nonempty : ∀ p ∈ pieces, p ≠ []

namespace Pieces

variable {α : Type}

/-- The whole sequence that is still to come. -/
def coming (c : Pieces α) : List α := c.pieces.flatten

/-- Take at most `n` elements of the next piece; nothing if `n` is zero or the source is at its
end. -/
def recv (n : ℕ) (c : Pieces α) : Option (List α × Pieces α) :=
  match hc : c.pieces with
  | [] => none
  | p :: ps =>
    if n = 0 then none
    else if h : p.length ≤ n then some (p, ⟨ps, fun q hq => c.nonempty q (by simp [hc, hq])⟩)
    else
      some (p.take n, ⟨p.drop n :: ps, by
        intro q hq
        rw [List.mem_cons] at hq
        obtain rfl | hq := hq
        · intro hnil
          rw [List.drop_eq_nil_iff] at hnil
          exact h hnil
        · exact c.nonempty q (by simp [hc, hq])⟩)

/-- What one delivery gives: a non-empty front part of at most `n` elements. -/
lemma recv_spec {n : ℕ} {c c' : Pieces α} {x : List α} (h : c.recv n = some (x, c')) :
    x ≠ [] ∧ x.length ≤ n ∧ c.coming = x ++ c'.coming := by
  unfold recv at h
  split at h
  · exact absurd h (by simp)
  · rename_i p ps hc
    have hp : p ≠ [] := c.nonempty p (by simp [hc])
    split_ifs at h with h0 hle
    · simp only [Option.some.injEq, Prod.mk.injEq] at h
      obtain ⟨rfl, rfl⟩ := h
      exact ⟨hp, hle, by simp [coming, hc]⟩
    · simp only [Option.some.injEq, Prod.mk.injEq] at h
      obtain ⟨rfl, rfl⟩ := h
      refine ⟨?_, List.length_take_le n p, ?_⟩
      · rw [ne_eq, List.take_eq_nil_iff]
        rintro (h | h)
        · exact h0 h
        · exact hp h
      · simp only [coming, hc, List.flatten_cons]
        rw [← List.append_assoc, List.take_append_drop]

/-- There is a delivery as long as something is to come. -/
lemma exists_recv {n : ℕ} {c : Pieces α} (hn : 0 < n) (hc : c.coming ≠ []) :
    ∃ x c', c.recv n = some (x, c') := by
  unfold recv
  split
  · rename_i h
    exact absurd (by simp [coming, h]) hc
  · rw [if_neg (Nat.pos_iff_ne_zero.mp hn)]
    split_ifs
    · exact ⟨_, _, rfl⟩
    · exact ⟨_, _, rfl⟩

lemma recv_zero (c : Pieces α) : c.recv 0 = none := by
  unfold recv
  split <;> rfl

lemma recv_of_coming_nil {n : ℕ} {c : Pieces α} (hc : c.coming = []) : c.recv n = none := by
  cases h : c.recv n with
  | none => rfl
  | some r =>
    obtain ⟨hx, -, hcoming⟩ := recv_spec h
    rw [hc] at hcoming
    exact absurd (List.append_eq_nil_iff.mp hcoming.symm).1 hx

/-! ### Gathering exactly `n` elements -/

/-- Receive until `n` elements are there. -/
def recvExactly (n : ℕ) (c : Pieces α) : Option (List α × Pieces α) :=
  if n = 0 then some ([], c)
  else
    match _h : c.recv n with
    | none => none
    | some (x, c') => (recvExactly (n - x.length) c').map fun r => (x ++ r.1, r.2)
termination_by n
decreasing_by
  obtain ⟨hx, _, -⟩ := recv_spec _h
  have := List.length_pos_iff.mpr hx
  omega

/-- The loop gathers the next `n` elements, however they are delivered. -/
lemma recvExactly_eq {n : ℕ} {c : Pieces α} (h : n ≤ c.coming.length) :
    ∃ c', c.recvExactly n = some (c.coming.take n, c') ∧ c'.coming = c.coming.drop n := by
  induction n using Nat.strong_induction_on generalizing c with
  | _ n ih =>
    rw [recvExactly]
    by_cases hn : n = 0
    · rw [if_pos hn]
      exact ⟨c, by simp [hn], by simp [hn]⟩
    · rw [if_neg hn]
      have hne : c.coming ≠ [] := by
        intro hnil
        simp [hnil] at h
        exact hn h
      obtain ⟨x, c₁, hrecv⟩ := exists_recv (Nat.pos_of_ne_zero hn) hne
      obtain ⟨hx, hle, hcoming⟩ := recv_spec hrecv
      have hpos := List.length_pos_iff.mpr hx
      have hle₁ : n - x.length ≤ c₁.coming.length := by
        rw [hcoming, List.length_append] at h
        omega
      obtain ⟨c', hrest, hdrop⟩ := ih (n - x.length) (by omega) hle₁
      refine ⟨c', ?_, ?_⟩
      · split
        · rename_i hnone
          rw [hrecv] at hnone
          exact absurd hnone (by simp)
        · rename_i y c₂ hsome
          rw [hrecv] at hsome
          simp only [Option.some.injEq, Prod.mk.injEq] at hsome
          obtain ⟨rfl, rfl⟩ := hsome
          rw [hrest, hcoming, List.take_append, List.take_of_length_le hle]
          rfl
      · rw [hdrop, hcoming, List.drop_append, List.drop_of_length_le hle, List.nil_append]

lemma recvExactly_spec {n : ℕ} {c c' : Pieces α} {x : List α}
    (h : c.recvExactly n = some (x, c')) : x.length = n ∧ c.coming = x ++ c'.coming := by
  induction n using Nat.strong_induction_on generalizing c x with
  | _ n ih =>
    rw [recvExactly] at h
    split_ifs at h with hn
    · simp only [Option.some.injEq, Prod.mk.injEq] at h
      obtain ⟨rfl, rfl⟩ := h
      exact ⟨by simp [hn], rfl⟩
    · split at h
      · exact absurd h (by simp)
      · rename_i y c₁ hrecv
        obtain ⟨hy, hle, hcoming⟩ := recv_spec hrecv
        have hpos := List.length_pos_iff.mpr hy
        rw [Option.map_eq_some_iff] at h
        obtain ⟨⟨z, c₂⟩, hrest, heq⟩ := h
        simp only [Prod.mk.injEq] at heq
        obtain ⟨rfl, rfl⟩ := heq
        obtain ⟨hlen, hz⟩ := ih (n - y.length) (by omega) hrest
        refine ⟨by rw [List.length_append]; omega, ?_⟩
        rw [hcoming, hz, List.append_assoc]

/-! ### Gathering at least `lo` elements -/

/-- With `got` gathered, receive up to `hi` in all until `lo` are there. -/
def recvAtLeast (lo hi : ℕ) (got : List α) (c : Pieces α) : Option (List α × Pieces α) :=
  if lo ≤ got.length then some (got, c)
  else
    match _h : c.recv (hi - got.length) with
    | none => none
    | some (x, c') => recvAtLeast lo hi (got ++ x) c'
termination_by lo - got.length
decreasing_by
  obtain ⟨hx, -, -⟩ := recv_spec _h
  have := List.length_pos_iff.mpr hx
  rw [List.length_append]
  omega

lemma recvAtLeast_spec {lo hi : ℕ} {got x : List α} {c c' : Pieces α} (hgot : got.length ≤ hi)
    (h : recvAtLeast lo hi got c = some (x, c')) :
    lo ≤ x.length ∧ x.length ≤ hi ∧ got.length ≤ x.length ∧ got ++ c.coming = x ++ c'.coming := by
  induction hk : lo - got.length using Nat.strong_induction_on generalizing got c with
  | _ k ih =>
    rw [recvAtLeast] at h
    split_ifs at h with hlo
    · simp only [Option.some.injEq, Prod.mk.injEq] at h
      obtain ⟨rfl, rfl⟩ := h
      exact ⟨hlo, hgot, le_rfl, rfl⟩
    · split at h
      · exact absurd h (by simp)
      · rename_i y c₁ hrecv
        obtain ⟨hy, hle, hcoming⟩ := recv_spec hrecv
        have hpos := List.length_pos_iff.mpr hy
        have hlen : (got ++ y).length = got.length + y.length := List.length_append
        obtain ⟨h₁, h₂, h₃, h₄⟩ := ih (lo - (got ++ y).length) (by omega) (by omega) h rfl
        refine ⟨h₁, h₂, by omega, ?_⟩
        rw [hcoming, ← List.append_assoc, h₄]

/-- The loop ends if enough is to come and fits. -/
lemma exists_recvAtLeast {lo hi : ℕ} {got : List α} {c : Pieces α} (hhi : lo ≤ hi)
    (h : lo ≤ (got ++ c.coming).length) : ∃ x c', recvAtLeast lo hi got c = some (x, c') := by
  induction hk : lo - got.length using Nat.strong_induction_on generalizing got c with
  | _ k ih =>
    rw [recvAtLeast]
    by_cases hlo : lo ≤ got.length
    · rw [if_pos hlo]
      exact ⟨got, c, rfl⟩
    · rw [if_neg hlo]
      have hne : c.coming ≠ [] := by
        intro hnil
        rw [hnil, List.append_nil] at h
        exact hlo h
      obtain ⟨y, c₁, hrecv⟩ := exists_recv (n := hi - got.length) (by omega) hne
      obtain ⟨hy, hle, hcoming⟩ := recv_spec hrecv
      have hpos := List.length_pos_iff.mpr hy
      have hlen : (got ++ y).length = got.length + y.length := List.length_append
      split
      · rename_i hnone
        rw [hrecv] at hnone
        exact absurd hnone (by simp)
      · rename_i z c₂ hsome
        rw [hrecv] at hsome
        simp only [Option.some.injEq, Prod.mk.injEq] at hsome
        obtain ⟨rfl, rfl⟩ := hsome
        refine ih (lo - (got ++ y).length) (by omega) ?_ rfl
        rw [List.append_assoc, ← hcoming]
        exact h

end Pieces

end OmniORB.Library
