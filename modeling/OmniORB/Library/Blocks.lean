import Mathlib

/-!
# Blocks of memory

A block is a run of cells from an address on. Loading from cells outside of the block and storing
into them have no result.
-/

namespace OmniORB.Library

/-- The cells from the address `base` on. -/
structure Block (α : Type) where
  base : ℕ
  cells : List α

namespace Block

open List

variable {α : Type} {m m' : Block α} {i n : ℕ} {b : List α}

/-- The address behind the last cell. -/
def limit (m : Block α) : ℕ := m.base + m.cells.length

/-- Whether `n` cells from an address on are in the block. -/
def Has (m : Block α) (address n : ℕ) : Prop := n = 0 ∨ (m.base ≤ address ∧ address + n ≤ m.limit)

instance (m : Block α) (address n : ℕ) : Decidable (m.Has address n) :=
  inferInstanceAs (Decidable (_ ∨ _))

/-- The cells from the address `p` on. -/
def since (m : Block α) (p : ℕ) : List α := m.cells.drop (p - m.base)

def load (m : Block α) (address n : ℕ) : Option (List α) :=
  if m.Has address n then some ((m.since address).take n) else none

def store (m : Block α) (address : ℕ) (b : List α) : Option (Block α) :=
  if m.Has address b.length then
    some { m with
      cells := m.cells.take (address - m.base) ++ b ++ m.cells.drop (address - m.base + b.length) }
  else none

lemma load_of_has (h : m.Has i n) : m.load i n = some ((m.since i).take n) := if_pos h

lemma has_of_le (hbase : m.base ≤ i) (hlimit : i + n ≤ m.limit) : m.Has i n := .inr ⟨hbase, hlimit⟩

lemma store_nil (m : Block α) : m.store 0 [] = some m := by
  rw [store, if_pos (.inl rfl)]
  simp

lemma since_add {p : ℕ} (h : m.base ≤ p) (k : ℕ) : m.since (p + k) = (m.since p).drop k := by
  rw [since, since, drop_drop, Nat.sub_add_comm h]

lemma length_since (m : Block α) (p : ℕ) : (m.since p).length = m.limit - max m.base p := by
  simp only [since, limit, length_drop]
  omega

/-- A store behind `k` cells that start at `p` replaces the cells there. -/
lemma store_since {p k : ℕ} (hbase : m.base ≤ p) (hlimit : p + k + b.length ≤ m.limit) :
    ∃ m', m.store (p + k) b = some m' ∧ m'.base = m.base ∧ m'.limit = m.limit ∧
      m'.since p = (m.since p).take k ++ b ++ (m.since p).drop (k + b.length) := by
  have hhas : m.Has (p + k) b.length := has_of_le (by omega) hlimit
  refine ⟨_, if_pos hhas, rfl, ?_, ?_⟩
  · simp only [limit, length_append, length_take, length_drop] at hlimit ⊢
    omega
  · have hk : p + k - m.base = p - m.base + k := by omega
    have hlen : p - m.base ≤ m.cells.length := by
      simp only [limit] at hlimit
      omega
    simp only [since, hk, append_assoc]
    rw [take_add, append_assoc, drop_append_of_le_length (by simp [hlen]),
      drop_of_length_le (by simp), nil_append, drop_drop, Nat.add_assoc]

end Block

end OmniORB.Library
